import Mathlib.Order.Lattice

namespace SideswapManager

-- Rust's BTreeMap as its entries in strictly increasing key order. The order is a field,
-- so every map the model builds is one the source can hold.
structure BTreeMap (K V : Type) [LinearOrder K] where
  entries : List (K × V)
  sorted : entries.Pairwise (fun a b => a.1 < b.1)

namespace BTreeMap
variable {K V W : Type} [LinearOrder K]

def insertEntry (k : K) (v : V) : List (K × V) → List (K × V)
  | [] => [(k,v)]
  | (k',v') :: rest =>
    if k < k' then (k,v) :: (k',v') :: rest
    else if k = k' then (k,v) :: rest
    else (k',v') :: insertEntry k v rest

def lookup (k : K) : List (K × V) → Option V
  | [] => none
  | (k',v') :: rest => if k = k' then some v' else lookup k rest

theorem mem_insertEntry {k : K} {v : V} {p : K × V} {l : List (K × V)}
    (member : p ∈ insertEntry k v l) : p = (k,v) ∨ p ∈ l := by
  induction l with
  | nil => simpa [insertEntry] using member
  | cons q rest ih =>
    unfold insertEntry at member
    split_ifs at member <;> simp only [List.mem_cons] at member ⊢
    · exact member.imp_right (·.imp_left id)
    · exact member.imp_right .inr
    · rcases member with rfl | inner
      · exact .inr (.inl rfl)
      · exact (ih inner).imp_right .inr

theorem insertEntry_sorted (k : K) (v : V) {l : List (K × V)}
    (sorted : l.Pairwise (fun a b => a.1 < b.1)) :
    (insertEntry k v l).Pairwise (fun a b => a.1 < b.1) := by
  induction l with
  | nil => simp [insertEntry]
  | cons q rest ih =>
    rw [List.pairwise_cons] at sorted
    unfold insertEntry
    split_ifs with below same
    · exact List.Pairwise.cons (fun p member => (List.mem_cons.mp member).elim
        (fun e => e ▸ below) (fun m => lt_trans below (sorted.1 p m))) (List.Pairwise.cons sorted.1 sorted.2)
    · subst same; exact List.Pairwise.cons sorted.1 sorted.2
    · refine List.Pairwise.cons (fun p member => ?_) (ih sorted.2)
      rcases mem_insertEntry member with rfl | old
      · exact lt_of_le_of_ne (not_lt.mp below) (Ne.symm same)
      · exact sorted.1 p old

theorem lookup_insertEntry (k k' : K) (v : V) (l : List (K × V)) :
    lookup k' (insertEntry k v l) = if k' = k then some v else lookup k' l := by
  induction l with
  | nil => simp [insertEntry, lookup]
  | cons q rest ih =>
    unfold insertEntry
    split_ifs <;> simp_all [lookup]

theorem lookup_eq_none_of_lt {k : K} {l : List (K × V)} (below : ∀ p ∈ l, k < p.1) :
    lookup k l = none := by
  induction l with
  | nil => rfl
  | cons q rest ih =>
    simp only [lookup, List.mem_cons, forall_eq_or_imp] at below ⊢
    rw [if_neg (ne_of_lt below.1), ih below.2]

theorem lookup_eq_some_mem {k : K} {v : V} {l : List (K × V)} (found : lookup k l = some v) :
    (k,v) ∈ l := by
  induction l with
  | nil => cases found
  | cons q rest ih =>
    unfold lookup at found
    split_ifs at found with same
    · cases found; exact List.mem_cons.mpr (.inl (by rw [same]))
    · exact List.mem_cons_of_mem _ (ih found)

theorem lookup_of_mem {k : K} {v : V} {l : List (K × V)}
    (sorted : l.Pairwise (fun a b => a.1 < b.1)) (member : (k,v) ∈ l) : lookup k l = some v := by
  induction l with
  | nil => cases member
  | cons q rest ih =>
    rw [List.pairwise_cons] at sorted
    rcases List.mem_cons.mp member with rfl | inner
    · simp [lookup]
    · have later := sorted.1 _ inner
      simp only [lookup, if_neg (ne_of_gt later), ih sorted.2 inner]

theorem lookup_append (k : K) (l₁ l₂ : List (K × V)) :
    lookup k (l₁ ++ l₂) = (lookup k l₁).or (lookup k l₂) := by
  induction l₁ with
  | nil => rfl
  | cons q rest ih => simp only [List.cons_append, lookup]; split <;> simp [ih]

theorem lookup_reverse {k : K} {l : List (K × V)} (sorted : l.Pairwise (fun a b => a.1 < b.1)) :
    lookup k l.reverse = lookup k l := by
  induction l with
  | nil => rfl
  | cons q rest ih =>
    rw [List.pairwise_cons] at sorted
    rw [List.reverse_cons, lookup_append, ih sorted.2]
    by_cases same : k = q.1
    · rw [lookup_eq_none_of_lt fun p m => same ▸ sorted.1 p m]; simp [lookup, same]
    · simp [lookup, same]

theorem lookup_isSome {k : K} {l : List (K × V)} : (lookup k l).isSome ↔ k ∈ l.map Prod.fst := by
  induction l with
  | nil => simp [lookup]
  | cons q rest ih =>
    by_cases same : k = q.1
    · simp [lookup, same]
    · simp only [lookup, same, if_false, ih, List.map_cons, List.mem_cons, false_or]

-- Two maps with the same lookups are equal: the key order fixes the entry list.
theorem entries_eq_of_lookup : ∀ {l₁ l₂ : List (K × V)},
    l₁.Pairwise (fun a b => a.1 < b.1) → l₂.Pairwise (fun a b => a.1 < b.1) →
    (∀ k, lookup k l₁ = lookup k l₂) → l₁ = l₂
  | [], [], _, _, _ => rfl
  | [], q :: _, _, _, same => by simpa [lookup] using (same q.1).symm
  | q :: _, [], _, _, same => by simpa [lookup] using same q.1
  | q₁ :: rest₁, q₂ :: rest₂, s₁, s₂, same => by
    rw [List.pairwise_cons] at s₁ s₂
    have heads : q₁.1 = q₂.1 := by
      rcases lt_trichotomy q₁.1 q₂.1 with lt | eq | gt
      · have := same q₁.1
        rw [lookup, if_pos rfl, lookup, if_neg (ne_of_lt lt),
          lookup_eq_none_of_lt fun p m => lt_trans lt (s₂.1 p m)] at this
        cases this
      · exact eq
      · have := same q₂.1
        rw [lookup, if_neg (ne_of_lt gt), lookup, if_pos rfl,
          lookup_eq_none_of_lt fun p m => lt_trans gt (s₁.1 p m)] at this
        cases this
    have values : q₁.2 = q₂.2 := by
      have := same q₁.1
      rwa [lookup, if_pos rfl, lookup, if_pos heads, Option.some.injEq] at this
    have tails : rest₁ = rest₂ := entries_eq_of_lookup s₁.2 s₂.2 fun k => by
      by_cases at₁ : k = q₁.1
      · rw [lookup_eq_none_of_lt fun p m => at₁ ▸ s₁.1 p m,
          lookup_eq_none_of_lt fun p m => at₁ ▸ heads ▸ s₂.1 p m]
      · have := same k
        rwa [lookup, if_neg at₁, lookup, if_neg (heads ▸ at₁)] at this
    rw [Prod.ext heads values, tails]

def empty : BTreeMap K V := ⟨[],List.Pairwise.nil⟩

instance emptyCollection : EmptyCollection (BTreeMap K V) := ⟨empty⟩

def get? (m : BTreeMap K V) (k : K) : Option V := lookup k m.entries

def contains (m : BTreeMap K V) (k : K) : Bool := (m.get? k).isSome

def insert (m : BTreeMap K V) (k : K) (v : V) : BTreeMap K V :=
  ⟨insertEntry k v m.entries,insertEntry_sorted k v m.sorted⟩

def remove (m : BTreeMap K V) (k : K) : BTreeMap K V :=
  ⟨m.entries.filter (fun p => p.1 ≠ k),m.sorted.sublist (List.filter_sublist _)⟩

def retain (m : BTreeMap K V) (keep : K → V → Bool) : BTreeMap K V :=
  ⟨m.entries.filter (fun p => keep p.1 p.2),m.sorted.sublist (List.filter_sublist _)⟩

def mapValues (m : BTreeMap K V) (f : V → W) : BTreeMap K W :=
  ⟨m.entries.map (fun p => (p.1,f p.2)),List.pairwise_map.mpr m.sorted⟩

def keys (m : BTreeMap K V) : List K := m.entries.map Prod.fst

def values (m : BTreeMap K V) : List V := m.entries.map Prod.snd

def lastKeyValue (m : BTreeMap K V) : Option (K × V) := m.entries.getLast?

-- `collect::<BTreeMap<_, _>>()`: entries inserted in iteration order, a later key wins.
def ofList (l : List (K × V)) : BTreeMap K V := l.foldl (fun m p => m.insert p.1 p.2) empty

theorem ext_get? {m₁ m₂ : BTreeMap K V} (same : ∀ k, m₁.get? k = m₂.get? k) : m₁ = m₂ := by
  cases m₁; cases m₂
  simp only [mk.injEq]
  exact entries_eq_of_lookup ‹_› ‹_› same

@[simp] theorem get?_empty (k : K) : (empty : BTreeMap K V).get? k = none := rfl

@[simp] theorem get?_emptyc (k : K) : (∅ : BTreeMap K V).get? k = none := rfl

@[simp] theorem get?_insert (m : BTreeMap K V) (k k' : K) (v : V) :
    (m.insert k v).get? k' = if k' = k then some v else m.get? k' :=
  lookup_insertEntry k k' v m.entries

theorem get?_remove_entries (k k' : K) (l : List (K × V)) :
    lookup k' (l.filter (fun p => p.1 ≠ k)) = if k' = k then none else lookup k' l := by
  induction l with
  | nil => simp [lookup]
  | cons q rest ih =>
    by_cases hq : q.1 = k <;> by_cases hk : k' = q.1 <;> simp_all [List.filter_cons, lookup]

@[simp] theorem get?_remove (m : BTreeMap K V) (k k' : K) :
    (m.remove k).get? k' = if k' = k then none else m.get? k' :=
  get?_remove_entries k k' m.entries

theorem lookup_map (f : V → W) (k : K) (l : List (K × V)) :
    lookup k (l.map (fun p => (p.1,f p.2))) = (lookup k l).map f := by
  induction l with
  | nil => rfl
  | cons q rest ih => by_cases hk : k = q.1 <;> simp_all [lookup]

theorem lookup_filter (keep : K → V → Bool) (k : K) {l : List (K × V)}
    (sorted : l.Pairwise (fun a b => a.1 < b.1)) :
    lookup k (l.filter (fun p => keep p.1 p.2)) = (lookup k l).filter (keep k) := by
  induction l with
  | nil => rfl
  | cons q rest ih =>
    rw [List.pairwise_cons] at sorted
    by_cases hk : k = q.1
    · subst hk
      have filtered := lookup_eq_none_of_lt (k := q.1) (l := rest.filter (fun p => keep p.1 p.2))
        fun p m => sorted.1 p (List.mem_filter.mp m).1
      cases hq : keep q.1 q.2 <;> simp [List.filter_cons, lookup, Option.filter, hq, filtered]
    · cases hq : keep q.1 q.2 <;> simp [List.filter_cons, lookup, hq, hk, ih sorted.2]

@[simp] theorem get?_mapValues (m : BTreeMap K V) (f : V → W) (k : K) :
    (m.mapValues f).get? k = (m.get? k).map f := lookup_map f k m.entries

theorem get?_retain (m : BTreeMap K V) (keep : K → V → Bool) (k : K) :
    (m.retain keep).get? k = (m.get? k).filter (keep k) := lookup_filter keep k m.sorted

@[simp] theorem keys_mapValues (m : BTreeMap K V) (f : V → W) : (m.mapValues f).keys = m.keys := by
  simp [keys, mapValues, Function.comp_def]

theorem mem_keys {m : BTreeMap K V} {k : K} : k ∈ m.keys ↔ (m.get? k).isSome := by
  constructor
  · intro member
    obtain ⟨⟨k,v⟩,found,rfl⟩ := List.mem_map.mp member
    simp [get?, lookup_of_mem m.sorted found]
  · intro found
    obtain ⟨v,hv⟩ := Option.isSome_iff_exists.mp found
    exact List.mem_map.mpr ⟨(k,v),lookup_eq_some_mem hv,rfl⟩

theorem mem_values {m : BTreeMap K V} {v : V} : v ∈ m.values ↔ ∃ k, m.get? k = some v := by
  constructor
  · intro member
    obtain ⟨⟨k,v⟩,found,rfl⟩ := List.mem_map.mp member
    exact ⟨k,lookup_of_mem m.sorted found⟩
  · rintro ⟨k,found⟩
    exact List.mem_map.mpr ⟨(k,v),lookup_eq_some_mem found,rfl⟩

theorem contains_iff {m : BTreeMap K V} {k : K} : m.contains k = true ↔ k ∈ m.keys :=
  mem_keys.symm

-- `last_key_value`: the entry with the greatest key.
theorem lastKeyValue_eq_some {m : BTreeMap K V} {k : K} {v : V} (last : m.lastKeyValue = some (k,v)) :
    m.get? k = some v ∧ ∀ k' ∈ m.keys, k' ≤ k := by
  obtain ⟨front,split⟩ := List.getLast?_eq_some_iff.mp last
  have sorted := m.sorted
  rw [split, List.pairwise_append] at sorted
  refine ⟨lookup_of_mem m.sorted (split ▸ List.mem_append_right _ (List.mem_singleton_self _)),?_⟩
  intro k' member
  rw [keys, split, List.map_append, List.mem_append] at member
  rcases member with early | final
  · obtain ⟨q,inFront,rfl⟩ := List.mem_map.mp early
    exact le_of_lt (sorted.2.2 q inFront _ (List.mem_singleton_self _))
  · simp at final; exact le_of_eq final

theorem lastKeyValue_eq_none {m : BTreeMap K V} (last : m.lastKeyValue = none) : m.keys = [] := by
  simp [lastKeyValue] at last; simp [keys, last]

theorem get?_ofList_foldl (k : K) (l : List (K × V)) (m : BTreeMap K V) :
    (l.foldl (fun m p => m.insert p.1 p.2) m).get? k = (lookup k l.reverse).or (m.get? k) := by
  induction l generalizing m with
  | nil => simp [lookup]
  | cons q rest ih =>
    rw [List.foldl_cons, ih, get?_insert, List.reverse_cons]
    clear ih
    induction rest.reverse with
    | nil => by_cases hk : k = q.1 <;> simp [lookup, hk]
    | cons r tail ih => by_cases hk : k = r.1 <;> simp_all [lookup]

theorem get?_ofList (l : List (K × V)) (k : K) : (ofList l).get? k = lookup k l.reverse := by
  simp [ofList, get?_ofList_foldl]

-- A `filter_map` that renames keys through `rename`, which `back` undoes, finds a new key at
-- the first entry of the one old key it can come from.
theorem lookup_filterMap {K' : Type} [LinearOrder K'] (rename : K → Option K') (back : K' → K)
    (undone : ∀ k k', rename k = some k' → back k' = k) (f : K' → V → W) (k' : K') (l : List (K × V)) :
    lookup k' (l.filterMap fun p => (rename p.1).map fun k' => (k',f k' p.2)) =
      if rename (back k') = some k' then (lookup (back k') l).map (f k') else none := by
  induction l with
  | nil => split <;> rfl
  | cons q rest ih =>
    rw [List.filterMap_cons]
    cases named : rename q.1 with
    | none =>
      by_cases hb : back k' = q.1
      · simp [lookup, hb, named, ih]
      · simp [lookup, hb, ih]
    | some k'' =>
      by_cases same : k' = k''
      · subst same; simp [lookup, undone _ _ named, named]
      · have other : back k' = q.1 → rename (back k') ≠ some k' := fun hb => by
          rw [hb, named]; exact fun e => same (Option.some.inj e).symm
        by_cases hb : back k' = q.1 <;> simp_all [lookup]

theorem get?_ofList_filterMap {K' : Type} [LinearOrder K'] (m : BTreeMap K V) (rename : K → Option K')
    (back : K' → K) (undone : ∀ k k', rename k = some k' → back k' = k) (f : K' → V → W) (k' : K') :
    (ofList (m.entries.filterMap fun p => (rename p.1).map fun k' => (k',f k' p.2))).get? k' =
      if rename (back k') = some k' then (m.get? (back k')).map (f k') else none := by
  rw [get?_ofList, ← List.filterMap_reverse, lookup_filterMap rename back undone, get?, lookup_reverse m.sorted]

theorem ofList_of_sorted (l : List (K × V)) (sorted : l.Pairwise (fun a b => a.1 < b.1)) :
    ofList l = ⟨l,sorted⟩ :=
  ext_get? fun k => by rw [get?_ofList, lookup_reverse sorted]; rfl

theorem contains_ofList (l : List (K × V)) (k : K) : (ofList l).contains k ↔ k ∈ l.map Prod.fst := by
  rw [contains, get?_ofList, lookup_isSome, List.map_reverse, List.mem_reverse]

end BTreeMap

-- Rust's BTreeSet<K> is BTreeMap<K, ()>.
abbrev BTreeSet (K : Type) [LinearOrder K] := BTreeMap K Unit

end SideswapManager
