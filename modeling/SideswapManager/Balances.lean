import SideswapManager.Coordinator

namespace SideswapManager.Balances

-- The sum of the values of the UTXOs that hold `asset`, in exact arithmetic.
def assetTotal : List Utxo → AssetId → Nat
  | [], _ => 0
  | u :: rest, asset => (if u.asset = asset then u.value.toNat else 0) + assetTotal rest asset

@[simp] theorem assetTotal_nil (asset : AssetId) : assetTotal [] asset = 0 := rfl

@[simp] theorem assetTotal_cons (u : Utxo) (utxos : List Utxo) (asset : AssetId) :
    assetTotal (u :: utxos) asset = (if u.asset = asset then u.value.toNat else 0) + assetTotal utxos asset := rfl

theorem assetTotal_filter (utxos : List Utxo) (keep : AssetId → Bool) (asset : AssetId) :
    assetTotal (utxos.filter fun u => keep u.asset) asset = if keep asset then assetTotal utxos asset else 0 := by
  induction utxos with
  | nil => simp
  | cons u rest ih =>
    by_cases same : u.asset = asset
    · subst same; cases kept : keep u.asset <;> simp [List.filter_cons, kept, ih]
    · cases kept : keep u.asset <;> simp [List.filter_cons, kept, same, ih]

-- The group-by-sum loop of convert_balances, wrapped to u64 as `+=` wraps.
theorem get?_foldl_addUtxoValue (utxos : List Utxo) (m : BTreeMap AssetId UInt64) (asset : AssetId) :
    (utxos.foldl addUtxoValue m).get? asset =
      if (m.get? asset).isSome ∨ ∃ u ∈ utxos, u.asset = asset then
        some (UInt64.ofNat (((m.get? asset).getD 0).toNat + assetTotal utxos asset))
      else none := by
  induction utxos generalizing m with
  | nil =>
    rw [List.foldl_nil]
    cases m.get? asset with
    | none => rfl
    | some v => simp [UInt64.toNat.inj (UInt64.toNat_ofNat_of_lt v.toNat_lt)]
  | cons u rest ih =>
    rw [List.foldl_cons, ih, addUtxoValue, BTreeMap.get?_insert]
    by_cases same : asset = u.asset
    · subst same
      have wrapped : UInt64.ofNat ((((m.get? u.asset).getD 0) + u.value).toNat + assetTotal rest u.asset) =
          UInt64.ofNat (((m.get? u.asset).getD 0).toNat + (u.value.toNat + assetTotal rest u.asset)) :=
        UInt64.toNat.inj (by simp only [u64_toNat_ofNat, u64_toNat_add]; omega)
      simp [wrapped]
    · simp [same, Ne.symm same]

theorem convertBalances_get? (lib : Lib) (utxoData : UtxoData)
    (inverse : ∀ a t, lib.tickers.ticker a = some t → lib.tickers.assetId t = a) (t : DealerTicker) :
    (convertBalances lib utxoData).get? t =
      if ∃ u ∈ utxoData.utxos, lib.tickers.ticker u.asset = some t then
        some (lib.assetFloatAmount (UInt64.ofNat (assetTotal utxoData.utxos (lib.tickers.assetId t)))
          (lib.tickers.precision t))
      else none := by
  refine (BTreeMap.get?_ofList_filterMap (utxoData.utxos.foldl addUtxoValue BTreeMap.empty) lib.tickers.ticker
    lib.tickers.assetId inverse (fun t amount => lib.assetFloatAmount amount (lib.tickers.precision t)) t).trans ?_
  rw [get?_foldl_addUtxoValue]
  by_cases known : ∃ u ∈ utxoData.utxos, lib.tickers.ticker u.asset = some t
  · obtain ⟨u,member,named⟩ := id known
    have back := inverse _ _ named
    have found : lib.tickers.ticker (lib.tickers.assetId t) = some t := by rw [back]; exact named
    have seen : ∃ u ∈ utxoData.utxos, u.asset = lib.tickers.assetId t := ⟨u,member,back.symm⟩
    rw [if_pos known, if_pos found, if_pos (.inr seen)]
    simp
  · rw [if_neg known]
    split_ifs with named seen
    · obtain ⟨u,member,asset⟩ := seen.resolve_left (by simp)
      exact absurd ⟨u,member,asset ▸ named⟩ known
    · rfl
    · rfl

-- While the per-asset sums fit in u64, the balances are the exact totals of the known assets.
theorem convert_balances_sums_known_assets (lib : Lib) (utxoData : UtxoData)
    (fits : ∀ a, assetTotal utxoData.utxos a < 2 ^ 64)
    (inverse : ∀ a t, lib.tickers.ticker a = some t → lib.tickers.assetId t = a) :
    (∀ t, t ∈ (convertBalances lib utxoData).keys ↔ ∃ u ∈ utxoData.utxos, lib.tickers.ticker u.asset = some t) ∧
    (∀ t ∈ (convertBalances lib utxoData).keys, ∃ total : UInt64,
      total.toNat = assetTotal utxoData.utxos (lib.tickers.assetId t) ∧
      (convertBalances lib utxoData).get? t = some (lib.assetFloatAmount total (lib.tickers.precision t))) ∧
    convertBalances lib ⟨utxoData.utxos.filter fun u => (lib.tickers.ticker u.asset).isSome⟩ =
      convertBalances lib utxoData := by
  have reported := convertBalances_get? lib utxoData inverse
  refine ⟨fun t => ?_,fun t member => ?_,BTreeMap.ext_get? fun t => ?_⟩
  · rw [BTreeMap.mem_keys, reported]
    split <;> simp_all
  · rw [BTreeMap.mem_keys, reported] at member
    split at member
    · exact ⟨_,UInt64.toNat_ofNat_of_lt (fits _),reported t ▸ if_pos ‹_›⟩
    · cases member
  · have same : (∃ u ∈ utxoData.utxos.filter fun u => (lib.tickers.ticker u.asset).isSome,
          lib.tickers.ticker u.asset = some t) ↔ ∃ u ∈ utxoData.utxos, lib.tickers.ticker u.asset = some t := by
      simp only [List.mem_filter]
      exact ⟨fun ⟨u,⟨member,_⟩,named⟩ => ⟨u,member,named⟩,fun ⟨u,member,named⟩ => ⟨u,⟨member,by simp [named]⟩,named⟩⟩
    rw [reported, convertBalances_get? lib _ inverse]
    dsimp only
    rw [assetTotal_filter _ fun a => (lib.tickers.ticker a).isSome]
    by_cases known : ∃ u ∈ utxoData.utxos, lib.tickers.ticker u.asset = some t
    · obtain ⟨u,_,named⟩ := id known
      have found : lib.tickers.ticker (lib.tickers.assetId t) = some t := by rw [inverse _ _ named]; exact named
      rw [if_pos (same.mpr known), if_pos known, found]
      rfl
    · rw [if_neg (mt same.mp known), if_neg known]

theorem convert_balances_sums_on_mixed_wallet :
    let lib : Lib := {Lib.constant with
      tickers := ⟨fun _ => true,fun _ => 5,fun _ => 8,fun a => if a = 5 then some 1 else none⟩}
    let utxoData : UtxoData := ⟨[⟨0,0,5,100⟩,⟨0,1,9,40⟩,⟨0,2,5,3⟩]⟩
    (∀ a, assetTotal utxoData.utxos a < 2 ^ 64) ∧
    (∀ a t, lib.tickers.ticker a = some t → lib.tickers.assetId t = a) ∧
    (∀ t, t ∈ (convertBalances lib utxoData).keys ↔ ∃ u ∈ utxoData.utxos, lib.tickers.ticker u.asset = some t) ∧
    (∀ t ∈ (convertBalances lib utxoData).keys, ∃ total : UInt64,
      total.toNat = assetTotal utxoData.utxos (lib.tickers.assetId t) ∧
      (convertBalances lib utxoData).get? t = some (lib.assetFloatAmount total (lib.tickers.precision t))) ∧
    convertBalances lib ⟨utxoData.utxos.filter fun u => (lib.tickers.ticker u.asset).isSome⟩ =
      convertBalances lib utxoData :=
  have fits : ∀ a, assetTotal [⟨0,0,5,100⟩,⟨0,1,9,40⟩,⟨0,2,5,3⟩] a < 2 ^ 64 := fun a => by
    simp only [assetTotal_cons, assetTotal_nil]; split_ifs <;> decide
  have inverse : ∀ a t, (if a = 5 then some 1 else none) = some t → (fun _ => 5 : DealerTicker → AssetId) t = a :=
    fun a t named => by split at named <;> simp_all
  ⟨fits,inverse,convert_balances_sums_known_assets _ _ fits inverse⟩

end SideswapManager.Balances
