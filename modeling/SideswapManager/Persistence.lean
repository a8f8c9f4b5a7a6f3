import SideswapManager.Effects

namespace SideswapManager.Persistence

-- The tables `run` reloads agree with persistence: the monitored txs are the persisted rows,
-- each address sits at its persisted index, and every persisted peg is tracked.
structure Synced (monitoredTxs : BTreeMap Txid MonitoredTx) (addresses : BTreeMap UInt32 Address)
    (pegs : BTreeSet OrderId) (db : Db) : Prop where
  monitored : monitoredTxs = db.monitoredTxs
  addressed : ∀ index : UInt32, addresses.get? index = db.addresses.get? index.toNat
  bounded : ∀ ind, (db.addresses.get? ind).isSome → ind < 2 ^ 32
  pegged : ∀ orderId, db.pegs.contains orderId → pegs.contains orderId

def InSync (w : World) : Prop := Synced w.data.monitoredTxs w.data.addresses w.data.pegs w.db

theorem inSync_of_eq {w : World} {d : Data} {db : Db} (data : w.data = d) (same : w.db = db) :
    InSync w ↔ Synced d.monitoredTxs d.addresses d.pegs db := by
  rw [InSync, data, same]

section Writes

variable {monitoredTxs : BTreeMap Txid MonitoredTx} {addresses : BTreeMap UInt32 Address}
  {pegs : BTreeSet OrderId} {db : Db} (synced : Synced monitoredTxs addresses pegs db)
include synced

-- Each write of a handler goes to memory and to persistence alike.
theorem Synced.monitor (m : MonitoredTx) :
    Synced (monitoredTxs.insert m.txid m) addresses pegs (db.addMonitoredTx m) :=
  ⟨by rw [synced.monitored]; rfl,synced.addressed,synced.bounded,synced.pegged⟩

theorem Synced.address (index : UInt32) (addr : Address) (keyed : addr.ind = index.toNat) :
    Synced monitoredTxs (addresses.insert index addr) pegs (db.addAddress addr) := by
  refine ⟨synced.monitored,fun k => ?_,fun ind found => ?_,synced.pegged⟩
  · simp only [Db.addAddress, BTreeMap.get?_insert, keyed, synced.addressed, UInt32.ext_iff]
  · simp only [Db.addAddress, BTreeMap.get?_insert] at found
    split at found
    · have := index.toNat_lt; omega
    · exact synced.bounded ind found

theorem Synced.peg (orderId : OrderId) :
    Synced monitoredTxs addresses (pegs.insert orderId ()) (db.addPeg orderId) := by
  refine ⟨synced.monitored,synced.addressed,synced.bounded,fun o tracked => ?_⟩
  simp only [Db.addPeg, BTreeMap.contains, BTreeMap.get?_insert] at tracked ⊢
  split
  · rfl
  · rw [if_neg ‹_›] at tracked; exact synced.pegged o tracked

theorem Synced.unpeg (orderId : OrderId) : Synced monitoredTxs addresses pegs (db.deletePeg orderId) := by
  refine ⟨synced.monitored,synced.addressed,synced.bounded,fun o tracked => synced.pegged o ?_⟩
  simp only [Db.deletePeg, BTreeMap.contains, BTreeMap.get?_remove] at tracked ⊢
  split at tracked
  · cases tracked
  · exact tracked

end Writes

-- A persisted table keyed by its rows' key column reloads as itself.
theorem values_keyed {V : Type} (m : BTreeMap Nat V) (key : V → Nat) (keyed : ∀ k v, m.get? k = some v → key v = k) :
    m.values.map (fun v => (key v,v)) = m.entries := by
  rw [BTreeMap.values, List.map_map]
  conv_rhs => rw [← List.map_id m.entries]
  refine List.map_congr_left fun p member => ?_
  simp [keyed p.1 p.2 (BTreeMap.lookup_of_mem m.sorted member)]

theorem load_monitoredTxs (db : Db) : (load db).monitoredTxs = db.monitoredTxs := by
  show BTreeMap.ofList (db.monitoredTxs.values.map fun m => (m.txid,m)) = _
  rw [values_keyed _ _ db.monitoredKeyed, BTreeMap.ofList_of_sorted _ db.monitoredTxs.sorted]

-- `addr.ind as u32` keeps every index below 2^32, in order.
theorem lookup_ofNat {V : Type} {l : List (Nat × V)} (bounded : ∀ p ∈ l, p.1 < 2 ^ 32) (index : UInt32) :
    BTreeMap.lookup index (l.map fun p => (UInt32.ofNat p.1,p.2)) = BTreeMap.lookup index.toNat l := by
  induction l with
  | nil => rfl
  | cons p rest ih =>
    have below := bounded p (List.mem_cons_self _ _)
    have same : index = UInt32.ofNat p.1 ↔ index.toNat = p.1 := by
      rw [UInt32.ext_iff, u32_toNat_ofNat, Nat.mod_eq_of_lt below]
    simp only [List.map_cons, BTreeMap.lookup, same, ih fun q member => bounded q (List.mem_cons_of_mem _ member)]

theorem sorted_ofNat {V : Type} {l : List (Nat × V)} (bounded : ∀ p ∈ l, p.1 < 2 ^ 32)
    (sorted : l.Pairwise (fun a b => a.1 < b.1)) :
    (l.map fun p => (UInt32.ofNat p.1,p.2)).Pairwise (fun a b => a.1 < b.1) := by
  rw [List.pairwise_map]
  refine sorted.imp_of_mem fun ma mb lt => ?_
  rwa [u32_lt_iff, u32_toNat_ofNat, u32_toNat_ofNat, Nat.mod_eq_of_lt (bounded _ ma), Nat.mod_eq_of_lt (bounded _ mb)]

theorem load_addresses (db : Db) (bounded : ∀ ind, (db.addresses.get? ind).isSome → ind < 2 ^ 32) (index : UInt32) :
    (load db).addresses.get? index = db.addresses.get? index.toNat := by
  have entries : ∀ p ∈ db.addresses.entries, p.1 < 2 ^ 32 := fun p member =>
    bounded p.1 (by rw [BTreeMap.get?, BTreeMap.lookup_of_mem db.addresses.sorted member]; rfl)
  have mapped : db.addresses.values.map (fun a => (UInt32.ofNat a.ind,a)) =
      db.addresses.entries.map fun p => (UInt32.ofNat p.1,p.2) := by
    rw [← values_keyed db.addresses Address.ind db.addressesKeyed, List.map_map]; rfl
  show (BTreeMap.ofList (db.addresses.values.map fun a => (UInt32.ofNat a.ind,a))).get? index = _
  rw [mapped, BTreeMap.ofList_of_sorted _ (sorted_ofNat entries db.addresses.sorted)]
  exact lookup_ofNat entries index

theorem bounded_of_loaded {db : Db} (bounded : ∀ a ∈ db.loadAddresses, a.ind < 2 ^ 32) :
    ∀ ind, (db.addresses.get? ind).isSome → ind < 2 ^ 32 := fun ind found => by
  obtain ⟨a,found⟩ := Option.isSome_iff_exists.mp found
  rw [← db.addressesKeyed ind a found]
  exact bounded a (BTreeMap.mem_values.mpr ⟨ind,found⟩)

theorem synced_start (db : Db) (bounded : ∀ a ∈ db.loadAddresses, a.ind < 2 ^ 32) : InSync (World.start db) := by
  refine ⟨load_monitoredTxs db,load_addresses db (bounded_of_loaded bounded),bounded_of_loaded bounded,fun o tracked => ?_⟩
  rw [BTreeMap.contains_iff] at tracked
  simpa [World.start, load, BTreeMap.contains_ofList, Db.loadPegs, Function.comp_def] using tracked

theorem processWalletEvent_tables (lib : Lib) (d : Data) (event : WalletEvent) :
    (processWalletEvent lib d event).monitoredTxs = d.monitoredTxs ∧
    (processWalletEvent lib d event).addresses = d.addresses ∧ (processWalletEvent lib d event).pegs = d.pegs := by
  cases event; simp only [processWalletEvent]; split <;> exact ⟨rfl,rfl,rfl⟩

theorem synced_of_eventsOnly {w : World} {d : Data} (synced : InSync w) (only : EventsOnly w.data d) :
    Synced d.monitoredTxs d.addresses d.pegs w.db := by
  rw [only.rest]; exact synced

-- Every branch of the main loop keeps memory and persistence in sync.
theorem synced_branch (lib : Lib) {w w' : World} {input : Input} (synced : InSync w)
    (ran : branch lib w input = some w') : InSync w' := by
  cases input with
  | wallet event =>
    cases ran
    obtain ⟨monitored,addressed,pegged⟩ := processWalletEvent_tables lib w.data event
    unfold InSync; rw [World.modify_data, World.modify_db, monitored, addressed, pegged]; exact synced
  | ws event =>
    cases ran
    exact (inSync_of_eq rfl (processWsEvent_db w event)).mpr (synced_of_eventsOnly synced (processWsEvent_eventsOnly w event))
  | command cmd =>
    change processCommand lib w cmd = some w' at ran
    by_cases client : ∃ id, cmd = .clientConnected id ∨ cmd = .clientDisconnected id
    · obtain ⟨id,rfl | rfl⟩ := client
      · cases ran; exact synced
      · simp only [processCommand] at ran
        split at ran
        · cases ran; exact synced
        · cases ran
    obtain ⟨d,only,write⟩ := handler_cases lib w ran fun id => ⟨fun same => client ⟨id,.inl same⟩,
      fun same => client ⟨id,.inr same⟩⟩
    have tables := synced_of_eventsOnly synced only
    rcases write with ⟨data,db⟩ | ⟨index,addr,keyed,data,db⟩ | ⟨_,_,data,db⟩ | ⟨m,_,data,db⟩ | ⟨_,_,data,db⟩ |
      ⟨orderId,data,db⟩ | ⟨orderId,data,db⟩ <;> rw [inSync_of_eq data db]
    · exact tables
    · exact tables.address index addr keyed
    · exact tables
    · exact tables.monitor m
    · exact tables
    · exact tables.peg orderId
    · exact tables.unpeg orderId

theorem synced_step (lib : Lib) {w w' : World} {input : Input} {now : Instant} (synced : InSync w)
    (ran : step lib w input now = some w') : InSync w' := by
  obtain ⟨next,found,rfl⟩ := step_eq_some ran
  exact (synced_branch lib synced found :)

theorem keys_keyed {V : Type} (m : BTreeMap Nat V) (key : V → Nat) (keyed : ∀ k v, m.get? k = some v → key v = k) :
    m.keys = m.values.map key := by
  rw [BTreeMap.keys, ← values_keyed m key keyed, List.map_map]; rfl

theorem restart_reloads_memory (lib : Lib) (db : Db) (bounded : ∀ a ∈ db.loadAddresses, a.ind < 2 ^ 32)
    {w : World} (reached : Reached lib (fun _ => True) db w) :
    w.data.monitoredTxs.keys = w.db.loadMonitoredTxs.map (·.txid) ∧
    (∀ index addr, w.data.addresses.get? index = some addr ↔ addr ∈ w.db.loadAddresses ∧ addr.ind = index.toNat) ∧
    (∀ orderId ∈ w.db.loadPegs, w.data.pegs.contains orderId) ∧
    (load w.db).monitoredTxs = w.data.monitoredTxs ∧ (load w.db).addresses = w.data.addresses := by
  have synced : InSync w :=
    reached.induct_on (synced_start db bounded) fun _ _ _ _ synced _ ran => synced_step lib synced ran
  refine ⟨?_,fun index addr => ?_,fun o member => synced.pegged o (BTreeMap.contains_iff.mpr member),
    (load_monitoredTxs _).trans synced.monitored.symm,
    BTreeMap.ext_get? fun k => (load_addresses _ synced.bounded k).trans (synced.addressed k).symm⟩
  · rw [synced.monitored]; exact keys_keyed _ _ w.db.monitoredKeyed
  · rw [synced.addressed]
    constructor
    · exact fun found => ⟨BTreeMap.mem_values.mpr ⟨_,found⟩,w.db.addressesKeyed _ _ found⟩
    · rintro ⟨member,keyed⟩
      obtain ⟨ind,found⟩ := BTreeMap.mem_values.mp member
      rwa [← keyed, w.db.addressesKeyed ind addr found]

theorem restart_reloads_memory_after_new_address :
    ∃ w, run Lib.constant (World.start Db.empty)
        [(.command (.newAddress none ⟨.reply (.ok ⟨3,"a"⟩),.reply (.ok ⟨3,"b"⟩)⟩),0)] = some w ∧
      w.db.loadAddresses = [⟨3,"b",none⟩] ∧ w.data.addresses.keys = [3] ∧
      (∀ a ∈ Db.empty.loadAddresses, a.ind < 2 ^ 32) ∧ Reached Lib.constant (fun _ => True) Db.empty w ∧
      w.data.monitoredTxs.keys = w.db.loadMonitoredTxs.map (·.txid) ∧
      (∀ index addr, w.data.addresses.get? index = some addr ↔ addr ∈ w.db.loadAddresses ∧ addr.ind = index.toNat) ∧
      (∀ orderId ∈ w.db.loadPegs, w.data.pegs.contains orderId) ∧
      (load w.db).monitoredTxs = w.data.monitoredTxs ∧ (load w.db).addresses = w.data.addresses :=
  have ran : run Lib.constant (World.start Db.empty)
      [(.command (.newAddress none ⟨.reply (.ok ⟨3,"a"⟩),.reply (.ok ⟨3,"b"⟩)⟩),0)] = some _ := rfl
  have reached := Reached.of_run .start (fun _ _ => trivial) ran
  ⟨_,ran,rfl,rfl,by decide,reached,restart_reloads_memory Lib.constant Db.empty (by decide) reached⟩

-- `addr.ind as u32` wraps a persisted index of 2^32 to key 0, whose entry then carries ind 2^32.
theorem oversized_index_reloads_at_wrapped_key :
    (World.start (Db.empty.addAddress ⟨2 ^ 32,"a",none⟩)).data.addresses.keys = [0] ∧
    ((World.start (Db.empty.addAddress ⟨2 ^ 32,"a",none⟩)).data.addresses.values.map (·.ind)) = [2 ^ 32] :=
  ⟨rfl,rfl⟩

end SideswapManager.Persistence
