import SideswapManager.Data

namespace SideswapManager.Registry

-- The fields of a `gdk_registry` asset entry that `get_assets` reads.
structure RegistryEntry where
  name : String
  ticker : Option String
  precision : UInt8
  domain : Option String
  issuancePrevout : Txid × UInt32
  issuerPubkey : String
  contract : String

structure LoadedAssets where
  assets : AssetId → Option RegistryEntry
  icons : AssetId → Option String

structure ApiAsset where
  assetId : AssetId
  name : String
  ticker : String
  icon : Option String
  precision : AssetPrecision
  domain : Option String
  issuancePrevout : Txid × UInt32
  issuerPubkey : String
  contract : String
  deriving DecidableEq

def assetPrecisionNew (precision : UInt8) : Option AssetPrecision :=
  if precision ≤ 8 then some precision.toNat else none

-- `none` is the panic of `expect` on the precision; a missing ticker is `format!("{:0.4}", ..)`.
def toAsset (showAssetId : AssetId → String) (loaded : LoadedAssets) (assetId : AssetId) (v : RegistryEntry) :
    Option ApiAsset :=
  (assetPrecisionNew v.precision).map fun precision =>
    ⟨assetId,v.name,v.ticker.getD ((showAssetId assetId).take 4),loaded.icons assetId,precision,v.domain,
      v.issuancePrevout,v.issuerPubkey,v.contract⟩

def collectAssets (showAssetId : AssetId → String) (loaded : LoadedAssets) : List AssetId → Option (List ApiAsset)
  | [] => some []
  | assetId :: rest =>
    match loaded.assets assetId with
    | none => collectAssets showAssetId loaded rest
    | some v => do
      let asset ← toAsset showAssetId loaded assetId v
      let assets ← collectAssets showAssetId loaded rest
      pure (asset :: assets)

-- `get_assets` on the registry's answer; `none` is a panic.
def getAssets (showAssetId : AssetId → String) (loaded : Except String LoadedAssets) (assetIds : List AssetId) :
    Option (Except String (List ApiAsset)) :=
  match loaded with
  | .error err => some (.error err)
  | .ok loaded => (collectAssets showAssetId loaded assetIds).map .ok

section Collect

variable (showAssetId : AssetId → String) (loaded : LoadedAssets)

theorem u8_le_iff {a b : UInt8} : a ≤ b ↔ a.toNat ≤ b.toNat := .rfl
theorem u8_lt_iff {a b : UInt8} : a < b ↔ a.toNat < b.toNat := .rfl

theorem toAsset_eq_none {assetId : AssetId} {v : RegistryEntry} :
    toAsset showAssetId loaded assetId v = none ↔ 8 < v.precision := by
  rw [u8_lt_iff]
  unfold toAsset assetPrecisionNew
  split
  · rename_i small; rw [u8_le_iff] at small; simp only [Option.map_some', reduceCtorEq, false_iff]; omega
  · rename_i large; rw [u8_le_iff] at large; simp only [Option.map_none', true_iff]; omega

theorem collectAssets_eq_none (assetIds : List AssetId) :
    collectAssets showAssetId loaded assetIds = none ↔
      ∃ assetId ∈ assetIds, ∃ v, loaded.assets assetId = some v ∧ 8 < v.precision := by
  induction assetIds with
  | nil => simp [collectAssets]
  | cons assetId rest ih =>
    simp only [List.mem_cons, exists_eq_or_imp]
    cases found : loaded.assets assetId with
    | none => simp [collectAssets, found, ih]
    | some v =>
      simp only [collectAssets, found, Option.some.injEq, exists_eq_left']
      rw [← ih]
      cases made : toAsset showAssetId loaded assetId v with
      | none => simp [(toAsset_eq_none showAssetId loaded).mp made]
      | some asset =>
        have small : ¬8 < v.precision := fun large => by
          rw [(toAsset_eq_none showAssetId loaded).mpr large] at made; cases made
        cases collectAssets showAssetId loaded rest <;> simp [small]

theorem collectAssets_eq_some {assetIds : List AssetId} {assets : List ApiAsset}
    (collected : collectAssets showAssetId loaded assetIds = some assets) :
    List.Forall₂ (fun pair asset => toAsset showAssetId loaded pair.1 pair.2 = some asset)
      (assetIds.filterMap fun assetId => (loaded.assets assetId).map (assetId,·)) assets := by
  induction assetIds generalizing assets with
  | nil => cases collected; exact .nil
  | cons assetId rest ih =>
    simp only [collectAssets] at collected
    cases found : loaded.assets assetId with
    | none =>
      simp only [found] at collected
      rw [List.filterMap_cons, found, Option.map_none']
      exact ih collected
    | some v =>
      simp only [found, Option.bind_eq_bind, Option.bind_eq_some, Option.pure_def, Option.some.injEq] at collected
      obtain ⟨asset,made,assets',rest',rfl⟩ := collected
      rw [List.filterMap_cons, found, Option.map_some']
      exact .cons made (ih rest')

theorem toAsset_assetId {assetId : AssetId} {v : RegistryEntry} {asset : ApiAsset}
    (made : toAsset showAssetId loaded assetId v = some asset) : asset.assetId = assetId := by
  obtain ⟨_,_,rfl⟩ := Option.map_eq_some'.mp made
  rfl

theorem toAsset_ticker {assetId : AssetId} {v : RegistryEntry} {asset : ApiAsset}
    (made : toAsset showAssetId loaded assetId v = some asset) :
    asset.ticker = v.ticker.getD ((showAssetId assetId).take 4) := by
  obtain ⟨_,_,rfl⟩ := Option.map_eq_some'.mp made
  rfl

theorem map_fst_filterMap (assetIds : List AssetId) :
    (assetIds.filterMap fun assetId => (loaded.assets assetId).map (assetId,·)).map Prod.fst =
      assetIds.filter fun assetId => (loaded.assets assetId).isSome := by
  induction assetIds with
  | nil => rfl
  | cons assetId rest ih => cases found : loaded.assets assetId <;> simp [List.filter_cons, found, ih]

variable {pairs : List (AssetId × RegistryEntry)} {assets : List ApiAsset}

theorem assetIds_of_forall₂
    (paired : List.Forall₂ (fun pair asset => toAsset showAssetId loaded pair.1 pair.2 = some asset) pairs assets) :
    assets.map ApiAsset.assetId = pairs.map Prod.fst := by
  induction paired with
  | nil => rfl
  | cons made _ ih => rw [List.map_cons, List.map_cons, ih, toAsset_assetId showAssetId loaded made]

theorem entry_of_forall₂
    (paired : List.Forall₂ (fun pair asset => toAsset showAssetId loaded pair.1 pair.2 = some asset) pairs assets)
    {asset : ApiAsset} (member : asset ∈ assets) : ∃ pair ∈ pairs, toAsset showAssetId loaded pair.1 pair.2 = some asset := by
  induction paired with
  | nil => cases member
  | cons made _ ih =>
    rcases List.mem_cons.mp member with rfl | later
    · exact ⟨_,List.mem_cons_self _ _,made⟩
    · obtain ⟨pair,inside,built⟩ := ih later
      exact ⟨pair,List.mem_cons_of_mem _ inside,built⟩

end Collect

-- `get_assets` panics exactly on a precision above 8; otherwise it builds one asset per known
-- requested id, in order.
theorem get_assets_keeps_known_ids (showAssetId : AssetId → String) (loaded : LoadedAssets) (assetIds : List AssetId) :
    (getAssets showAssetId (.ok loaded) assetIds = none ↔
      ∃ assetId ∈ assetIds, ∃ v, loaded.assets assetId = some v ∧ 8 < v.precision) ∧
    ∀ assets, getAssets showAssetId (.ok loaded) assetIds = some (.ok assets) →
      assets.map ApiAsset.assetId = assetIds.filter (fun assetId => (loaded.assets assetId).isSome) ∧
      ∀ asset ∈ assets, ∃ v, loaded.assets asset.assetId = some v ∧ toAsset showAssetId loaded asset.assetId v = some asset ∧
        asset.ticker = v.ticker.getD ((showAssetId asset.assetId).take 4) := by
  refine ⟨by simp [getAssets, collectAssets_eq_none],fun assets got => ?_⟩
  have collected : collectAssets showAssetId loaded assetIds = some assets := by simpa [getAssets] using got
  have paired := collectAssets_eq_some showAssetId loaded collected
  refine ⟨(assetIds_of_forall₂ showAssetId loaded paired).trans (map_fst_filterMap loaded assetIds),fun asset member => ?_⟩
  obtain ⟨⟨assetId,v⟩,inside,built⟩ := entry_of_forall₂ showAssetId loaded paired member
  obtain ⟨_,_,mapped⟩ := List.mem_filterMap.mp inside
  obtain ⟨_,found,⟨⟩⟩ := Option.map_eq_some'.mp mapped
  rw [toAsset_assetId showAssetId loaded built]
  exact ⟨v,found,built,toAsset_ticker showAssetId loaded built⟩

end SideswapManager.Registry
