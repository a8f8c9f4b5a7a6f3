import SideswapManager.Persistence

namespace SideswapManager.Addresses

theorem gap_limit_toNat : GAP_LIMIT.toNat = 20 := rfl

-- Each address sits at its own index, far below the top of u32.
def Keyed (addresses : BTreeMap UInt32 Address) : Prop :=
  ∀ k a, addresses.get? k = some a → a.ind = k.toNat ∧ k.toNat < 2 ^ 31 + GAP_LIMIT.toNat

theorem firstUnusedDb_above {addresses : BTreeMap UInt32 Address} (keyed : Keyed addresses) :
    (∀ k ∈ addresses.keys, k.toNat < (firstUnusedDb addresses).toNat) ∧
    ∀ k a, addresses.lastKeyValue = some (k,a) → (firstUnusedDb addresses).toNat = a.ind + 1 := by
  unfold firstUnusedDb
  cases last : addresses.lastKeyValue with
  | none => simp [BTreeMap.lastKeyValue_eq_none last]
  | some entry =>
    obtain ⟨k,a⟩ := entry
    obtain ⟨found,below⟩ := BTreeMap.lastKeyValue_eq_some last
    obtain ⟨ind,bounded⟩ := keyed k a found
    have next : (UInt32.ofNat a.ind + 1).toNat = a.ind + 1 := by
      rw [UInt32.toNat_add, u32_toNat_ofNat, gap_limit_toNat] at *
      show (a.ind % 2 ^ 32 + 1) % 2 ^ 32 = a.ind + 1
      omega
    simp only [Option.map_some', Option.getD_some, next]
    refine ⟨fun k' member => ?_,fun k'' a' same => ?_⟩
    · have := u32_le_iff.mp (below k' member); omega
    · cases same; rfl

-- A successful NewAddress allocates above every key and within GAP_LIMIT of the wallet's index.
theorem newAddress_allocates (w : World) (userNote : Option String) (ans : NewAddressAnswers)
    (keyed : Keyed w.data.addresses) {resp : NewAddressResp} (ok : (newAddress w userNote ans).2 = .ok resp) :
    ∃ first, ans.firstUnused = .reply (.ok first) ∧ (∀ k ∈ w.data.addresses.keys, k < resp.index) ∧
      first.index ≤ resp.index ∧ (resp.index - first.index).toNat = resp.index.toNat - first.index.toNat ∧
      resp.index.toNat < first.index.toNat + GAP_LIMIT.toNat ∧
      (newAddress w userNote ans).1.data.addresses =
        w.data.addresses.insert resp.index ⟨resp.index.toNat,resp.address,userNote⟩ ∧
      (newAddress w userNote ans).1.db = w.db.addAddress ⟨resp.index.toNat,resp.address,userNote⟩ := by
  rcases newAddress_cases w userNote ans with ⟨_,err,failed⟩ | ⟨first,newAddr,asked,_,guard,data,db,result⟩
  · cases failed.symm.trans ok
  cases result.symm.trans ok
  have above := (firstUnusedDb_above keyed).1
  have max := u32_toNat_max first.index (firstUnusedDb w.data.addresses)
  have exact := UInt32.toNat_sub_of_le _ _ (le_max_left first.index (firstUnusedDb w.data.addresses))
  refine ⟨first,asked,fun k member => ?_,le_max_left _ _,exact,?_,by rw [data],db⟩
  · have := above k member; rw [u32_lt_iff]; dsimp only; omega
  · have := u32_lt_iff.mp guard; dsimp only; rw [gap_limit_toNat] at *; omega

-- Answered twice and within the gap, NewAddress answers `max(first_unused_wallet, first_unused_db)`.
theorem newAddress_answers (w : World) (userNote : Option String) (first newAddr : NewAddrResp)
    (guard : max first.index (firstUnusedDb w.data.addresses) - first.index < GAP_LIMIT) :
    (newAddress w userNote ⟨.reply (.ok first),.reply (.ok newAddr)⟩).2 =
      .ok ⟨max first.index (firstUnusedDb w.data.addresses),newAddr.address⟩ := by
  simp only [newAddress, getNewAddress, World.request, WalletReply.result, World.issue_data]
  rw [if_pos guard]

def issuedOf : Reply → Option UInt32
  | .newAddress (.ok resp) => some resp.index
  | _ => none

def issuedIndices (w : World) : List UInt32 := (replies w).filterMap issuedOf

theorem issuedIndices_respond {α : Type} (result : World × α) (reply : α → Reply) :
    issuedIndices (respond result reply) = issuedIndices result.1 ++ (issuedOf (reply result.2)).toList := by
  simp only [issuedIndices, respond, replies_reply, List.filterMap_append]
  cases issued : issuedOf (reply result.2) <;> simp [issued]

theorem issuedIndices_respond_of {α : Type} {w : World} (result : World × α) (reply : α → Reply)
    (other : issuedOf (reply result.2) = none) (same : replies result.1 = replies w) :
    issuedIndices (respond result reply) = issuedIndices w := by
  rw [issuedIndices_respond, other, Option.toList_none, List.append_nil, issuedIndices, same]; rfl

-- Only a successful NewAddress writes the address table or hands out an index.
theorem address_branch (lib : Lib) {w w' : World} {input : Input} (ran : branch lib w input = some w') :
    (issuedIndices w' = issuedIndices w ∧ w'.data.addresses = w.data.addresses) ∨
    ∃ userNote ans resp, input = .command (.newAddress userNote ans) ∧ (newAddress w userNote ans).2 = .ok resp ∧
      issuedIndices w' = issuedIndices w ++ [resp.index] ∧
      w'.data.addresses = (newAddress w userNote ans).1.data.addresses := by
  cases input with
  | wallet event => cases ran; exact .inl ⟨rfl,(congrArg Data.addresses (processWalletEvent_rest lib w.data event) :)⟩
  | ws event =>
    cases ran
    exact .inl ⟨congrArg (List.filterMap issuedOf) (replies_processWsEvent event),
      (processWsEvent_eventsOnly w event).frame Data.addresses fun _ _ _ => rfl⟩
  | command cmd =>
    cases cmd with
    | newAddress userNote ans =>
      cases ran
      rcases newAddress_cases w userNote ans with ⟨⟨data,_⟩,err,failed⟩ | ⟨_,newAddr,_,_,_,_,_,result⟩
      · exact .inl ⟨issuedIndices_respond_of _ _ (by rw [failed]; rfl) (newAddress_replies userNote ans),
          congrArg Data.addresses data⟩
      · refine .inr ⟨userNote,ans,_,rfl,result,?_,rfl⟩
        rw [issuedIndices_respond, result, issuedIndices, newAddress_replies]; rfl
    | createTx recipients reply =>
      cases ran
      refine .inl ⟨issuedIndices_respond_of _ _ rfl (createTx_replies lib recipients reply),?_⟩
      rcases createTx_cases lib w recipients reply with ⟨⟨data,_⟩,_⟩ | ⟨_,_,data,_,_⟩ <;> rw [respond_data, data]
    | sendTx req ans =>
      obtain ⟨⟨_,_⟩,sent,rfl⟩ := Option.map_eq_some'.mp ran
      refine .inl ⟨issuedIndices_respond_of _ _ rfl (sendTx_replies lib sent),?_⟩
      rcases sendTx_cases lib w sent with ⟨⟨data,_⟩,_⟩ | ⟨_,_,_,⟨data,_⟩ | ⟨data,_⟩⟩ <;> rw [respond_data, data]
    | getQuote req ans =>
      cases ran
      refine .inl ⟨issuedIndices_respond_of _ _ rfl (getQuote_replies lib req ans),?_⟩
      obtain ⟨_,d,only,⟨data,_⟩ | ⟨_,_,_,data,_⟩⟩ := getQuote_cases lib w req ans <;>
        rw [respond_data, data] <;> exact only.frame Data.addresses fun _ _ _ => rfl
    | acceptQuote req ans =>
      obtain ⟨⟨_,_⟩,accepted,rfl⟩ := Option.map_eq_some'.mp ran
      refine .inl ⟨issuedIndices_respond_of _ _ rfl (acceptQuote_replies lib accepted),?_⟩
      rcases acceptQuote_cases lib w accepted with ⟨⟨data,_⟩,_⟩ | ⟨_,_,_,_,data,_⟩ <;> rw [respond_data, data]
    | newPeg req ans =>
      cases ran
      refine .inl ⟨issuedIndices_respond_of _ _ rfl (newPeg_replies req ans),?_⟩
      rcases newPeg_cases w req ans with ⟨⟨data,_⟩,_⟩ | ⟨_,status,_,_,data,_,_⟩
      · rw [respond_data, data]
      · rw [respond_data, data]; exact (processPegStatus_eventsOnly w.data status).frame Data.addresses fun _ _ _ => rfl
    | delPeg => cases ran; exact .inl ⟨issuedIndices_respond_of _ _ rfl rfl,rfl⟩
    | getMonitoredTxs reply =>
      cases ran
      exact .inl ⟨issuedIndices_respond_of _ _ rfl (getMonitoredTxs_replies reply),
        congrArg Data.addresses (getMonitoredTxs_quiet w reply).1⟩
    | clientConnected => cases ran; exact .inl ⟨rfl,rfl⟩
    | clientDisconnected =>
      simp only [branch, processCommand] at ran
      split at ran
      · cases ran; exact .inl ⟨rfl,rfl⟩
      · cases ran

theorem address_step (lib : Lib) {w w' : World} {input : Input} {now : Instant} (ran : step lib w input now = some w') :
    (issuedIndices w' = issuedIndices w ∧ w'.data.addresses = w.data.addresses) ∨
    ∃ userNote ans resp, input = .command (.newAddress userNote ans) ∧ (newAddress w userNote ans).2 = .ok resp ∧
      issuedIndices w' = issuedIndices w ++ [resp.index] ∧
      w'.data.addresses = (newAddress w userNote ans).1.data.addresses := by
  obtain ⟨next,found,rfl⟩ := step_eq_some ran
  exact (address_branch lib found :)

-- The wallet's first unused index stays in its non-hardened range.
def WalletBelow : Input → Prop
  | .command (.newAddress _ ans) => ∀ first, ans.firstUnused = .reply (.ok first) → first.index.toNat < 2 ^ 31
  | _ => True

def Reports (w₀ : UInt32) : Input → Prop
  | .command (.newAddress _ ans) => ∀ first, ans.firstUnused = .reply (.ok first) → first.index = w₀
  | _ => True

-- What the handed-out indices keep: each is a key of the table, above all earlier ones.
structure Allocated (w : World) : Prop where
  keyed : Keyed w.data.addresses
  kept : ∀ i ∈ issuedIndices w, i ∈ w.data.addresses.keys
  increasing : (issuedIndices w).Pairwise (· < ·)

theorem allocated_start (db : Db) (persisted : ∀ a ∈ db.loadAddresses, a.ind < 2 ^ 31) :
    Allocated (World.start db) := by
  have bounded := Persistence.bounded_of_loaded fun a member => (persisted a member).trans (by decide)
  refine ⟨fun k a found => ?_,nofun,List.Pairwise.nil⟩
  rw [World.start, Persistence.load_addresses db bounded] at found
  have := persisted a (BTreeMap.mem_values.mpr ⟨_,found⟩)
  rw [db.addressesKeyed _ _ found] at this ⊢
  exact ⟨rfl,by omega⟩

-- One cycle keeps the invariant and hands out at most one index, near the wallet's report.
theorem allocated_step (lib : Lib) {w w' : World} {input : Input} {now : Instant} (allocated : Allocated w)
    (below : WalletBelow input) (ran : step lib w input now = some w') :
    Allocated w' ∧ (issuedIndices w' = issuedIndices w ∨ ∃ userNote ans first index,
      input = .command (.newAddress userNote ans) ∧ ans.firstUnused = .reply (.ok first) ∧
      issuedIndices w' = issuedIndices w ++ [index] ∧ first.index ≤ index ∧
      index.toNat < first.index.toNat + GAP_LIMIT.toNat) := by
  rcases address_step lib ran with ⟨issued,same⟩ | ⟨userNote,ans,resp,rfl,ok,issued,table⟩
  · exact ⟨⟨same ▸ allocated.keyed,issued ▸ same ▸ allocated.kept,issued ▸ allocated.increasing⟩,.inl issued⟩
  obtain ⟨first,asked,above,le,_,bound,inserted,_⟩ := newAddress_allocates w userNote ans allocated.keyed ok
  have fresh := below first asked
  rw [inserted] at table
  refine ⟨⟨fun k a found => ?_,fun i member => ?_,?_⟩,.inr ⟨userNote,ans,first,resp.index,rfl,asked,issued,le,bound⟩⟩
  · rw [table, BTreeMap.get?_insert] at found
    split at found
    · cases found; rename_i same; subst same; rw [gap_limit_toNat] at *; exact ⟨rfl,by omega⟩
    · exact allocated.keyed k a found
  · rw [table, BTreeMap.mem_keys, BTreeMap.get?_insert]
    rw [issued, List.mem_append, List.mem_singleton] at member
    split
    · rfl
    · rcases member with old | new
      · exact BTreeMap.mem_keys.mp (allocated.kept i old)
      · contradiction
  · rw [issued, List.pairwise_append]
    exact ⟨allocated.increasing,List.pairwise_singleton _ _,fun i old _ new =>
      List.mem_singleton.mp new ▸ above i (allocated.kept i old)⟩

theorem allocated_reached (lib : Lib) (db : Db) (persisted : ∀ a ∈ db.loadAddresses, a.ind < 2 ^ 31)
    {w : World} (reached : Reached lib WalletBelow db w) : Allocated w :=
  reached.induct_on (allocated_start db persisted) fun _ _ _ _ allocated below ran =>
    (allocated_step lib allocated below ran).1

theorem length_le_of_window {l : List Nat} (increasing : l.Pairwise (· < ·)) :
    ∀ {lo n : Nat}, (∀ x ∈ l, lo ≤ x ∧ x < lo + n) → l.length ≤ n := by
  induction l with
  | nil => exact fun _ => Nat.zero_le _
  | cons x rest ih =>
    intro lo n within
    obtain ⟨after,rest_increasing⟩ := List.pairwise_cons.mp increasing
    have ⟨low,high⟩ := within x (List.mem_cons_self _ _)
    have := @ih rest_increasing (x + 1) (lo + n - (x + 1)) fun y member => by
      have := within y (List.mem_cons_of_mem _ member); have := after y member; omega
    rw [List.length_cons]; omega

-- While the wallet reports `w₀`, the new indices sit in [w₀, w₀ + GAP_LIMIT).
theorem window_run (lib : Lib) (w₀ : UInt32) (inputs : List (Input × Instant)) :
    ∀ {w w' : World}, Allocated w → (∀ p ∈ inputs, WalletBelow p.1 ∧ Reports w₀ p.1) → run lib w inputs = some w' →
      Allocated w' ∧ ∃ fresh, issuedIndices w' = issuedIndices w ++ fresh ∧
        ∀ i ∈ fresh, w₀ ≤ i ∧ i.toNat < w₀.toNat + GAP_LIMIT.toNat := by
  induction inputs with
  | nil => intro w w' allocated _ ran; cases ran; exact ⟨allocated,[],(List.append_nil _).symm,nofun⟩
  | cons p rest ih =>
    intro w w' allocated ok ran
    obtain ⟨next,stepped,later⟩ := Option.bind_eq_some.mp ran
    have ⟨below,reports⟩ := ok p (List.mem_cons_self _ _)
    obtain ⟨allocated',issued⟩ := allocated_step lib allocated below stepped
    obtain ⟨final,fresh,extended,within⟩ := ih allocated' (fun q m => ok q (List.mem_cons_of_mem _ m)) later
    rcases issued with same | ⟨_,_,first,index,input,asked,issued,le,bound⟩
    · exact ⟨final,fresh,same ▸ extended,within⟩
    · refine ⟨final,index :: fresh,by rw [extended, issued, List.append_assoc]; rfl,?_⟩
      rw [input] at reports
      have reported := reports first asked
      rw [reported] at le bound
      exact List.forall_mem_cons.mpr ⟨⟨le,bound⟩,within⟩

-- From a load whose indices, and the wallet's reports, stay below 2^31, the indices handed out
-- increase strictly, and at most GAP_LIMIT more while the wallet keeps reporting one index.
theorem new_address_indices_increase (lib : Lib) (db : Db) (persisted : ∀ a ∈ db.loadAddresses, a.ind < 2 ^ 31)
    {w : World} (reached : Reached lib WalletBelow db w) :
    (∀ userNote first newAddr, max first.index (firstUnusedDb w.data.addresses) - first.index < GAP_LIMIT →
      (newAddress w userNote ⟨.reply (.ok first),.reply (.ok newAddr)⟩).2 =
        .ok ⟨max first.index (firstUnusedDb w.data.addresses),newAddr.address⟩) ∧
    (∀ userNote ans resp, (newAddress w userNote ans).2 = .ok resp →
      ∃ first, ans.firstUnused = .reply (.ok first) ∧ (∀ k ∈ w.data.addresses.keys, k < resp.index) ∧
        first.index ≤ resp.index ∧ resp.index.toNat < first.index.toNat + GAP_LIMIT.toNat ∧
        (resp.index - first.index).toNat = resp.index.toNat - first.index.toNat ∧
        (newAddress w userNote ans).1.data.addresses =
          w.data.addresses.insert resp.index ⟨resp.index.toNat,resp.address,userNote⟩) ∧
    (∀ k a, w.data.addresses.lastKeyValue = some (k,a) → (firstUnusedDb w.data.addresses).toNat = a.ind + 1) ∧
    (issuedIndices w).Pairwise (· < ·) ∧
    ∀ w₀ inputs w', (∀ p ∈ inputs, WalletBelow p.1 ∧ Reports w₀ p.1) → run lib w inputs = some w' →
      (issuedIndices w').length ≤ (issuedIndices w).length + GAP_LIMIT.toNat := by
  have allocated := allocated_reached lib db persisted reached
  refine ⟨newAddress_answers w,fun userNote ans resp ok => ?_,(firstUnusedDb_above allocated.keyed).2,allocated.increasing,
    fun w₀ inputs w' ok ran => ?_⟩
  · obtain ⟨first,asked,above,le,exact,bound,inserted,_⟩ := newAddress_allocates w userNote ans allocated.keyed ok
    exact ⟨first,asked,above,le,bound,exact,inserted⟩
  · obtain ⟨final,fresh,extended,within⟩ := window_run lib w₀ inputs allocated ok ran
    have increasing : (fresh.map UInt32.toNat).Pairwise (· < ·) :=
      List.pairwise_map.mpr (List.pairwise_append.mp (extended ▸ final.increasing)).2.1
    have counted := @length_le_of_window _ increasing w₀.toNat _ fun x member => by
      obtain ⟨i,fresh_member,rfl⟩ := List.mem_map.mp member
      have within := within i fresh_member
      exact ⟨u32_le_iff.mp within.1,within.2⟩
    rw [extended, List.length_append]; rw [List.length_map] at counted; omega

theorem new_address_indices_increase_after_new_address :
    ∃ w, run Lib.constant (World.start Db.empty)
        [(.command (.newAddress none ⟨.reply (.ok ⟨3,"a"⟩),.reply (.ok ⟨3,"b"⟩)⟩),0)] = some w ∧
      w.sent.map Sent.msg = [.wallet (.newAddress false none),.wallet (.newAddress false (some 3)),
        .reply (.newAddress (.ok ⟨3,"b"⟩))] ∧
      (newAddress w none ⟨.reply (.ok ⟨10,"c"⟩),.reply (.ok ⟨10,"d"⟩)⟩).2 = .ok ⟨10,"d"⟩ ∧
      (∀ a ∈ Db.empty.loadAddresses, a.ind < 2 ^ 31) ∧ Reached Lib.constant WalletBelow Db.empty w ∧
      (∀ userNote first newAddr, max first.index (firstUnusedDb w.data.addresses) - first.index < GAP_LIMIT →
        (newAddress w userNote ⟨.reply (.ok first),.reply (.ok newAddr)⟩).2 =
          .ok ⟨max first.index (firstUnusedDb w.data.addresses),newAddr.address⟩) ∧
      (∀ userNote ans resp, (newAddress w userNote ans).2 = .ok resp →
        ∃ first, ans.firstUnused = .reply (.ok first) ∧ (∀ k ∈ w.data.addresses.keys, k < resp.index) ∧
          first.index ≤ resp.index ∧ resp.index.toNat < first.index.toNat + GAP_LIMIT.toNat ∧
          (resp.index - first.index).toNat = resp.index.toNat - first.index.toNat ∧
          (newAddress w userNote ans).1.data.addresses =
            w.data.addresses.insert resp.index ⟨resp.index.toNat,resp.address,userNote⟩) ∧
      (∀ k a, w.data.addresses.lastKeyValue = some (k,a) → (firstUnusedDb w.data.addresses).toNat = a.ind + 1) ∧
      (issuedIndices w).Pairwise (· < ·) ∧
      ∀ w₀ inputs w', (∀ p ∈ inputs, WalletBelow p.1 ∧ Reports w₀ p.1) → run Lib.constant w inputs = some w' →
        (issuedIndices w').length ≤ (issuedIndices w).length + GAP_LIMIT.toNat :=
  have ran : run Lib.constant (World.start Db.empty)
      [(.command (.newAddress none ⟨.reply (.ok ⟨3,"a"⟩),.reply (.ok ⟨3,"b"⟩)⟩),0)] = some _ := rfl
  have reached : Reached Lib.constant WalletBelow Db.empty _ :=
    .of_run .start (by exact List.forall_mem_singleton.mpr fun _ asked => by cases asked; decide) ran
  ⟨_,ran,rfl,rfl,by decide,reached,new_address_indices_increase Lib.constant Db.empty (by decide) reached⟩

end SideswapManager.Addresses
