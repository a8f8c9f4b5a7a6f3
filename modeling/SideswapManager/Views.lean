import Mathlib.Data.List.Chain
import SideswapManager.Effects

namespace SideswapManager.Views

def balancesOf : Notif → Option BalancesNotif
  | .balances notif => some notif
  | .pegStatus _ => none

-- The last Balances notification pushed to a sink.
def lastBalancesSent (c : ClientData) : Option BalancesNotif := (c.notifs.filterMap balancesOf).getLast?

def lastPegStatusSent (c : ClientData) (orderId : OrderId) : Option PegStatus :=
  (c.notifs.filterMap fun
    | .pegStatus status => if status.orderId = orderId then some status else none
    | .balances _ => none).getLast?

theorem lastBalancesSent_eq_none (c : ClientData) :
    lastBalancesSent c = none ↔ ∀ n ∈ c.notifs, balancesOf n = none := by
  rw [lastBalancesSent, List.getLast?_eq_none_iff, List.filterMap_eq_nil_iff]

theorem balances_extends {c c' : ClientData} (extended : Extends c c') :
    c'.notifs.filterMap balancesOf = c.notifs.filterMap balancesOf := by
  obtain ⟨more,notifs,pegs⟩ := extended
  have quiet : more.filterMap balancesOf = [] := List.filterMap_eq_nil_iff.mpr fun n member => by
    obtain ⟨_,rfl⟩ := pegs n member; rfl
  rw [notifs, List.filterMap_append, quiet, List.append_nil]

theorem lastBalancesSent_extends {c c' : ClientData} (extended : Extends c c') :
    lastBalancesSent c' = lastBalancesSent c := by
  rw [lastBalancesSent, lastBalancesSent, balances_extends extended]

theorem lastBalancesSent_replay (d : Data) : lastBalancesSent ⟨replay d⟩ = d.lastBalances := by
  have quiet : (d.pegStatuses.values.map Notif.pegStatus).filterMap balancesOf = [] :=
    List.filterMap_eq_nil_iff.mpr fun n member => by obtain ⟨_,_,rfl⟩ := List.mem_map.mp member; rfl
  rw [lastBalancesSent, replay, List.filterMap_append, quiet, List.append_nil]
  cases d.lastBalances <;> rfl

-- Every connected client's last Balances notification is `last_balances`.
def BalancesShown (d : Data) : Prop :=
  ∀ id c, d.clients.get? id = some c → lastBalancesSent c = d.lastBalances

-- What commands and server events leave of the client views.
structure ViewsKept (d d' : Data) : Prop where
  balances : d'.lastBalances = d.lastBalances
  sinks : ∀ id, Option.Rel Extends (d.clients.get? id) (d'.clients.get? id)

theorem ViewsKept.of_eventsOnly {d d' : Data} (only : EventsOnly d d') : ViewsKept d d' :=
  ⟨by rw [only.rest],only.sinks⟩

theorem BalancesShown.kept {d d' : Data} (shown : BalancesShown d) (kept : ViewsKept d d') : BalancesShown d' := by
  intro id c' found
  have sink := kept.sinks id
  rw [found] at sink
  cases old : d.clients.get? id with
  | none => rw [old] at sink; cases sink
  | some c =>
    rw [old] at sink
    cases sink with
    | some extended => rw [lastBalancesSent_extends extended, shown id c old, kept.balances]

theorem balancesShown_wallet (lib : Lib) {d : Data} (shown : BalancesShown d) (event : WalletEvent) :
    BalancesShown (processWalletEvent lib d event) := by
  cases event with
  | utxos utxoData =>
    simp only [processWalletEvent]
    split
    · intro id c found
      simp only [sendNotifs_clients, BTreeMap.get?_mapValues] at found
      obtain ⟨_,_,rfl⟩ := Option.map_eq_some'.mp found
      rw [lastBalancesSent, List.filterMap_append, List.getLast?_append]; rfl
    · exact shown

theorem balancesShown_connected {d : Data} (shown : BalancesShown d) (id : ClientId) :
    BalancesShown {d with clients := d.clients.insert id ⟨replay d⟩} := by
  intro id' c found
  simp only [BTreeMap.get?_insert] at found
  split at found
  · cases found; exact lastBalancesSent_replay d
  · exact shown id' c found

theorem balancesShown_disconnected {d : Data} (shown : BalancesShown d) (id : ClientId) :
    BalancesShown {d with clients := d.clients.remove id} := by
  intro id' c found
  simp only [BTreeMap.get?_remove] at found
  split at found
  · cases found
  · exact shown id' c found

-- The handlers write the client views only through the server events they drain.
theorem handler_viewsKept (lib : Lib) {w w' : World} {cmd : Command} (ran : processCommand lib w cmd = some w')
    (handler : ∀ id, cmd ≠ .clientConnected id ∧ cmd ≠ .clientDisconnected id) : ViewsKept w.data w'.data := by
  obtain ⟨d,only,write⟩ := handler_cases lib w ran handler
  have kept : ViewsKept w.data d := ViewsKept.of_eventsOnly only
  rcases write with ⟨data,_⟩ | ⟨_,_,_,data,_⟩ | ⟨_,_,data,_⟩ | ⟨_,_,data,_⟩ | ⟨_,_,data,_⟩ | ⟨_,data,_⟩ | ⟨_,data,_⟩ <;>
    rw [data] <;> exact ⟨kept.balances,kept.sinks⟩

theorem balancesShown_branch (lib : Lib) {w w' : World} {input : Input} (shown : BalancesShown w.data)
    (ran : branch lib w input = some w') : BalancesShown w'.data := by
  cases input with
  | wallet event => cases ran; exact balancesShown_wallet lib shown event
  | ws event => cases ran; exact shown.kept (ViewsKept.of_eventsOnly (processWsEvent_eventsOnly w event))
  | command cmd =>
    change processCommand lib w cmd = some w' at ran
    cases cmd
    case clientConnected id => cases ran; exact balancesShown_connected shown id
    case clientDisconnected id =>
      simp only [processCommand] at ran
      split at ran
      · cases ran; exact balancesShown_disconnected shown id
      · cases ran
    all_goals exact shown.kept (handler_viewsKept lib ran fun _ => ⟨nofun,nofun⟩)

theorem balancesShown_step (lib : Lib) {w w' : World} {input : Input} {now : Instant} (shown : BalancesShown w.data)
    (ran : step lib w input now = some w') : BalancesShown w'.data := by
  obtain ⟨next,found,rfl⟩ := step_eq_some ran
  exact (balancesShown_branch lib shown found :)

-- Through any run, every connected client's last Balances notification is `last_balances`.
theorem clients_see_last_balances (lib : Lib) (db : Db) {w : World} (reached : Reached lib (fun _ => True) db w) :
    ∀ id c, w.data.clients.get? id = some c →
      lastBalancesSent c = w.data.lastBalances ∧ ((∀ n ∈ c.notifs, balancesOf n = none) ↔ w.data.lastBalances = none) := by
  have shown : BalancesShown w.data :=
    reached.induct_on (fun _ _ found => by cases found) fun _ _ _ _ shown _ ran => balancesShown_step lib shown ran
  intro id c found
  rw [← lastBalancesSent_eq_none, shown id c found]
  exact ⟨rfl,Iff.rfl⟩

theorem clients_see_last_balances_after_utxos :
    ∃ w, run Lib.constant (World.start Db.empty) [(.command (.clientConnected 1),0),(.wallet (.utxos ⟨[]⟩),0),
        (.wallet (.utxos ⟨[⟨1,0,5,100⟩]⟩),0),(.command (.clientConnected 2),0)] = some w ∧
      w.data.lastBalances.map (·.balances.keys) = some [5] ∧
      w.data.clients.values.map (fun c => (c.notifs.filterMap balancesOf).map (·.balances.keys)) = [[[],[5]],[[5]]] ∧
      Reached Lib.constant (fun _ => True) Db.empty w ∧
      ∀ id c, w.data.clients.get? id = some c →
        lastBalancesSent c = w.data.lastBalances ∧ ((∀ n ∈ c.notifs, balancesOf n = none) ↔ w.data.lastBalances = none) :=
  have ran : run Lib.constant (World.start Db.empty) [(.command (.clientConnected 1),0),(.wallet (.utxos ⟨[]⟩),0),
      (.wallet (.utxos ⟨[⟨1,0,5,100⟩]⟩),0),(.command (.clientConnected 2),0)] = some _ := rfl
  have reached := Reached.of_run .start (fun _ _ => trivial) ran
  ⟨_,ran,rfl,rfl,reached,clients_see_last_balances Lib.constant Db.empty reached⟩

-- Consecutive Balances notifications in each sink differ under the code's `!=`.
def NoRepeat (d : Data) : Prop :=
  ∀ id c, d.clients.get? id = some c → (c.notifs.filterMap balancesOf).Chain' fun a b => (a != b) = true

theorem balances_replay (d : Data) : (replay d).filterMap balancesOf = d.lastBalances.toList := by
  have quiet : (d.pegStatuses.values.map Notif.pegStatus).filterMap balancesOf = [] :=
    List.filterMap_eq_nil_iff.mpr fun n member => by obtain ⟨_,_,rfl⟩ := List.mem_map.mp member; rfl
  rw [replay, List.filterMap_append, quiet, List.append_nil]
  cases d.lastBalances <;> rfl

theorem NoRepeat.kept {d d' : Data} (norep : NoRepeat d) (kept : ViewsKept d d') : NoRepeat d' := by
  intro id c' found
  have sink := kept.sinks id
  rw [found] at sink
  cases old : d.clients.get? id with
  | none => rw [old] at sink; cases sink
  | some c =>
    rw [old] at sink
    cases sink with
    | some extended => rw [balances_extends extended]; exact norep id c old

theorem noRepeat_wallet (lib : Lib) {d : Data} (shown : BalancesShown d) (norep : NoRepeat d) (event : WalletEvent) :
    NoRepeat (processWalletEvent lib d event) := by
  cases event with
  | utxos utxoData =>
    simp only [processWalletEvent]
    split
    · rename_i changed
      intro id c' found
      simp only [sendNotifs_clients, BTreeMap.get?_mapValues] at found
      obtain ⟨c,old,rfl⟩ := Option.map_eq_some'.mp found
      rw [List.filterMap_append, List.chain'_append]
      refine ⟨norep id c old,List.chain'_singleton _,fun x last y first => ?_⟩
      cases first
      rw [Option.mem_def, ← lastBalancesSent, shown id c old] at last
      rwa [last] at changed
    · exact norep

theorem noRepeat_connected {d : Data} (norep : NoRepeat d) (id : ClientId) :
    NoRepeat {d with clients := d.clients.insert id ⟨replay d⟩} := by
  intro id' c found
  simp only [BTreeMap.get?_insert] at found
  split at found
  · cases found
    rw [balances_replay]
    cases d.lastBalances
    · exact List.chain'_nil
    · exact List.chain'_singleton _
  · exact norep id' c found

theorem noRepeat_disconnected {d : Data} (norep : NoRepeat d) (id : ClientId) :
    NoRepeat {d with clients := d.clients.remove id} := by
  intro id' c found
  simp only [BTreeMap.get?_remove] at found
  split at found
  · cases found
  · exact norep id' c found

theorem noRepeat_branch (lib : Lib) {w w' : World} {input : Input} (shown : BalancesShown w.data)
    (norep : NoRepeat w.data) (ran : branch lib w input = some w') : NoRepeat w'.data := by
  cases input with
  | wallet event => cases ran; exact noRepeat_wallet lib shown norep event
  | ws event => cases ran; exact norep.kept (ViewsKept.of_eventsOnly (processWsEvent_eventsOnly w event))
  | command cmd =>
    change processCommand lib w cmd = some w' at ran
    cases cmd
    case clientConnected id => cases ran; exact noRepeat_connected norep id
    case clientDisconnected id =>
      simp only [processCommand] at ran
      split at ran
      · cases ran; exact noRepeat_disconnected norep id
      · cases ran
    all_goals exact norep.kept (handler_viewsKept lib ran fun _ => ⟨nofun,nofun⟩)

-- Through any run, no client is pushed two Balances notifications the code's `!=` takes for equal.
theorem balances_never_pushed_twice (lib : Lib) (db : Db) {w : World} (reached : Reached lib (fun _ => True) db w) :
    ∀ id c, w.data.clients.get? id = some c →
      (c.notifs.filterMap balancesOf).Chain' fun a b => (a != b) = true := by
  have invariant : BalancesShown w.data ∧ NoRepeat w.data := by
    induction reached with
    | start => exact ⟨fun _ _ found => (nomatch found),fun _ _ found => (nomatch found)⟩
    | cycle _ _ ran ih =>
      obtain ⟨next,found,rfl⟩ := step_eq_some ran
      exact ⟨(balancesShown_branch lib ih.1 found :),(noRepeat_branch lib ih.1 ih.2 found :)⟩
  exact invariant.2

theorem balances_never_pushed_twice_after_utxos :
    ∃ w, run Lib.constant (World.start Db.empty) [(.command (.clientConnected 1),0),(.wallet (.utxos ⟨[]⟩),0),
        (.wallet (.utxos ⟨[⟨1,0,5,100⟩]⟩),0)] = some w ∧
      (w.data.clients.get? 1).map (fun c => (c.notifs.filterMap balancesOf).map (·.balances.keys)) = some [[],[5]] ∧
      Reached Lib.constant (fun _ => True) Db.empty w ∧
      ∀ id c, w.data.clients.get? id = some c →
        (c.notifs.filterMap balancesOf).Chain' fun a b => (a != b) = true :=
  have ran : run Lib.constant (World.start Db.empty) [(.command (.clientConnected 1),0),(.wallet (.utxos ⟨[]⟩),0),
      (.wallet (.utxos ⟨[⟨1,0,5,100⟩]⟩),0)] = some _ := rfl
  have reached := Reached.of_run .start (fun _ _ => trivial) ran
  ⟨_,ran,rfl,reached,balances_never_pushed_twice Lib.constant Db.empty reached⟩

-- new_peg stores the first status before it tracks the order, so a connected client misses it.
theorem new_peg_status_misses_connected_client :
    ∃ w, run Lib.constant (World.start Db.empty)
        [(.command (.clientConnected 1),0),(.command (.newPeg ⟨"addr",true,none⟩ ⟨.ok ⟨7,"peg"⟩,.ok ⟨7,"pending"⟩⟩),0)] =
        some w ∧
      Reached Lib.constant (fun _ => True) Db.empty w ∧ w.data.pegs.contains 7 ∧
      w.data.pegStatuses.get? 7 = some ⟨7,"pending"⟩ ∧ (w.data.clients.get? 1).map (lastPegStatusSent · 7) = some none ∧
      lastPegStatusSent ⟨replay w.data⟩ 7 = some ⟨7,"pending"⟩ :=
  have ran : run Lib.constant (World.start Db.empty)
      [(.command (.clientConnected 1),0),(.command (.newPeg ⟨"addr",true,none⟩ ⟨.ok ⟨7,"peg"⟩,.ok ⟨7,"pending"⟩⟩),0)] =
      some _ := rfl
  ⟨_,ran,.of_run .start (fun _ _ => trivial) ran,rfl,rfl,rfl,rfl⟩

end SideswapManager.Views
