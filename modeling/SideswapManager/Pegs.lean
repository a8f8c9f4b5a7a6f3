import SideswapManager.Effects

namespace SideswapManager.Pegs

theorem contains_insert_of_contains {pegs : BTreeSet OrderId} {o : OrderId} (tracked : pegs.contains o)
    (o' : OrderId) : (pegs.insert o' ()).contains o := by
  unfold BTreeMap.contains at *
  rw [BTreeMap.get?_insert]
  split
  · rfl
  · exact tracked

section Tracking

variable (lib : Lib) {w w' : World} {o : OrderId}

-- Only NewPeg writes the tracked pegs, and it adds one; DelPeg deletes the persisted row only.
theorem pegs_processCommand {cmd : Command} (ran : processCommand lib w cmd = some w')
    (tracked : w.data.pegs.contains o) : w'.data.pegs.contains o := by
  cases cmd
  case clientConnected => cases ran; exact tracked
  case clientDisconnected =>
    simp only [processCommand] at ran
    split at ran
    · cases ran; exact tracked
    · cases ran
  all_goals
    obtain ⟨d,only,written⟩ := handler_cases lib w ran fun _ => ⟨nofun,nofun⟩
    have kept : d.pegs.contains o := (only.frame Data.pegs fun _ _ _ => rfl).symm ▸ tracked
    rcases written with ⟨data,_⟩ | ⟨_,_,_,data,_⟩ | ⟨_,_,data,_⟩ | ⟨_,_,data,_⟩ | ⟨_,_,data,_⟩ | ⟨_,data,_⟩ | ⟨_,data,_⟩ <;>
      rw [data]
    all_goals first | exact kept | exact contains_insert_of_contains kept _

theorem pegs_branch {input : Input} (ran : branch lib w input = some w') (tracked : w.data.pegs.contains o) :
    w'.data.pegs.contains o := by
  cases input with
  | wallet event =>
    cases ran
    show (processWalletEvent lib w.data event).pegs.contains o
    rw [processWalletEvent_rest]
    exact tracked
  | ws event => cases ran; rw [(processWsEvent_eventsOnly w event).frame Data.pegs fun _ _ _ => rfl]; exact tracked
  | command cmd => exact pegs_processCommand lib ran tracked

theorem pegs_run {inputs : List (Input × Instant)} (ran : run lib w inputs = some w') (tracked : w.data.pegs.contains o) :
    w'.data.pegs.contains o := by
  induction inputs generalizing w with
  | nil => cases ran; exact tracked
  | cons cycle rest ih =>
    obtain ⟨next,stepped,later⟩ := Option.bind_eq_some.mp ran
    obtain ⟨branched,found,rfl⟩ := step_eq_some stepped
    exact ih later (pegs_branch lib found tracked :)

end Tracking

-- DelPeg deletes the persisted row only: the coordinator tracks the peg until a restart.
theorem deleted_pegs_tracked_until_restart (lib : Lib) {w w' : World} {inputs : List (Input × Instant)}
    (ran : run lib w inputs = some w') {orderId : OrderId} (tracked : w.data.pegs.contains orderId) :
    w'.data.pegs.contains orderId ∧
    .server (.pegStatus orderId) ∈ ((processWsEvent w' .connected).sent.drop w'.sent.length).map Sent.msg ∧
    (∀ status : PegStatus, status.orderId = orderId →
      (processPegStatus w'.data status).clients = w'.data.clients.mapValues fun c => ⟨c.notifs ++ [.pegStatus status]⟩) ∧
    ((World.start w'.db).data.pegs.contains orderId ↔ w'.db.pegs.contains orderId) := by
  have kept := pegs_run lib ran tracked
  refine ⟨kept,?_,fun status named => ?_,?_⟩
  · rw [processWsEvent, processWsConnected_sent, List.drop_left]
    simp [BTreeMap.contains_iff.mp kept]
  · rw [processPegStatus_clients, named, if_pos kept]
  · rw [World.start, load, BTreeMap.contains_ofList, BTreeMap.contains_iff, Db.loadPegs, List.map_map]
    simp

theorem deleted_pegs_tracked_until_restart_on_del_peg :
    ∃ w', run Lib.constant (World.start (Db.empty.addPeg 7)) [(.command (.delPeg 7),0)] = some w' ∧
      w'.db.pegs.contains 7 = false ∧
      w'.data.pegs.contains 7 ∧
      .server (.pegStatus 7) ∈ ((processWsEvent w' .connected).sent.drop w'.sent.length).map Sent.msg ∧
      (∀ status : PegStatus, status.orderId = 7 →
        (processPegStatus w'.data status).clients = w'.data.clients.mapValues fun c => ⟨c.notifs ++ [.pegStatus status]⟩) ∧
      ((World.start w'.db).data.pegs.contains 7 ↔ w'.db.pegs.contains 7) :=
  have ran : run Lib.constant (World.start (Db.empty.addPeg 7)) [(.command (.delPeg 7),0)] = some _ := rfl
  ⟨_,ran,rfl,deleted_pegs_tracked_until_restart Lib.constant ran rfl⟩

end SideswapManager.Pegs
