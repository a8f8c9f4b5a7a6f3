import SideswapManager.Views

namespace SideswapManager.Connections

inductive Phase where
  | handshaking  -- awaiting `accept_async`
  | looping      -- ClientConnected sent, in `client_loop`
  | closed       -- `client_loop` ended and ClientDisconnected was sent
  | failed       -- the handshake failed: the task returned having sent nothing
  deriving DecidableEq

-- The ClientConnected (`true`) and ClientDisconnected (`false`) a task in this phase has sent.
def Phase.sent : Phase → List Bool
  | .handshaking => []
  | .looping => [true]
  | .closed => [true,false]
  | .failed => []

structure Task where
  clientId : ClientId
  phase : Phase

-- `ws_server::run` with its `client_run` tasks, the command channel and the coordinator.
structure Sys where
  lastId : UInt64
  spawned : Nat
  tasks : Nat → Option Task
  commands : List Command
  w : World
  delivered : List Command

inductive Label where
  | accept                               -- `listener.accept()` returns in `run`
  | handshake (task : Nat) (ok : Bool)   -- `accept_async` completes or fails
  | request (task : Nat) (cmd : Command) -- `client_loop` forwards a request
  | close (task : Nat)                   -- `client_loop` breaks: stream closed or failed, or sink dropped
  | deliver (now : Instant)              -- the coordinator takes the oldest command
  | event (input : Input) (now : Instant) -- the coordinator's wallet or server branch

-- What a command says about a client: ClientConnected `(id,true)`, ClientDisconnected `(id,false)`.
def clientEvent : Command → Option (ClientId × Bool)
  | .clientConnected clientId => some (clientId,true)
  | .clientDisconnected clientId => some (clientId,false)
  | _ => none

def eventsFor (clientId : ClientId) (cmds : List Command) : List Bool :=
  cmds.filterMap fun cmd => (clientEvent cmd).bind fun event => if event.1 = clientId then some event.2 else none

-- `last_id += 1` on u64 wraps in a release build.
def accept (s : Sys) : Sys :=
  {s with
    lastId := s.lastId + 1
    spawned := s.spawned + 1
    tasks := Function.update s.tasks s.spawned (some ⟨s.lastId + 1,.handshaking⟩)}

def advance (s : Sys) (k : Nat) (t : Task) (phase : Phase) (sent : List Command) : Sys :=
  {s with tasks := Function.update s.tasks k (some {t with phase := phase}), commands := s.commands ++ sent}

def sysStep (lib : Lib) (s : Sys) : Label → Option Sys
  | .accept => some (accept s)
  | .handshake k ok => (s.tasks k).bind fun t =>
    if t.phase = .handshaking then
      some (if ok then advance s k t .looping [.clientConnected t.clientId] else advance s k t .failed [])
    else none
  | .request k cmd => (s.tasks k).bind fun t =>
    if t.phase = .looping ∧ clientEvent cmd = none then some {s with commands := s.commands ++ [cmd]} else none
  | .close k => (s.tasks k).bind fun t =>
    if t.phase = .looping then some (advance s k t .closed [.clientDisconnected t.clientId]) else none
  | .deliver now =>
    match s.commands with
    | [] => none
    | cmd :: rest => (step lib s.w (.command cmd) now).map fun w =>
      {s with commands := rest, w := w, delivered := s.delivered ++ [cmd]}
  | .event input now =>
    match input with
    | .command _ => none
    | _ => (step lib s.w input now).map fun w => {s with w := w}

def Sys.start (db : Db) : Sys := ⟨0,0,fun _ => none,[],World.start db,[]⟩

-- The states of every interleaving from a load of `db`.
inductive SysReached (lib : Lib) (db : Db) : Sys → Prop where
  | start : SysReached lib db (Sys.start db)
  | step {s s' : Sys} (label : Label) : SysReached lib db s → sysStep lib s label = some s' → SysReached lib db s'

def sysRun (lib : Lib) (s : Sys) : List Label → Option Sys
  | [] => some s
  | label :: rest => (sysStep lib s label).bind (sysRun lib · rest)

theorem SysReached.of_sysRun {lib : Lib} {db : Db} {s s' : Sys} {labels : List Label}
    (reached : SysReached lib db s) (ran : sysRun lib s labels = some s') : SysReached lib db s' := by
  induction labels generalizing s with
  | nil => cases ran; exact reached
  | cons label rest ih =>
    obtain ⟨next,stepped,later⟩ := Option.bind_eq_some.mp ran
    exact ih (.step label reached stepped) later

section Events

@[simp] theorem eventsFor_nil (clientId : ClientId) : eventsFor clientId [] = [] := rfl

@[simp] theorem eventsFor_append (clientId : ClientId) (l l' : List Command) :
    eventsFor clientId (l ++ l') = eventsFor clientId l ++ eventsFor clientId l' :=
  List.filterMap_append _ _ _

theorem eventsFor_cons (clientId : ClientId) (cmd : Command) (l : List Command) :
    eventsFor clientId (cmd :: l) = eventsFor clientId [cmd] ++ eventsFor clientId l :=
  eventsFor_append clientId [cmd] l

@[simp] theorem eventsFor_connected (clientId id : ClientId) :
    eventsFor clientId [.clientConnected id] = if id = clientId then [true] else [] := by
  by_cases same : id = clientId <;> simp [eventsFor, clientEvent, same]

@[simp] theorem eventsFor_disconnected (clientId id : ClientId) :
    eventsFor clientId [.clientDisconnected id] = if id = clientId then [false] else [] := by
  by_cases same : id = clientId <;> simp [eventsFor, clientEvent, same]

theorem eventsFor_of_none {cmd : Command} (other : clientEvent cmd = none) (clientId : ClientId) :
    eventsFor clientId [cmd] = [] := by
  simp only [eventsFor, List.filterMap_cons, other, Option.none_bind, List.filterMap_nil]

theorem phase_sent_valid (phase : Phase) : phase.sent <+: [true,false] := by
  cases phase <;> decide

theorem before_connected {l r : List Bool} (valid : l ++ true :: r <+: [true,false]) : l = [] := by
  match l, valid with
  | [], _ => rfl
  | [b], valid => have := valid.eq_of_length_le; simp_all
  | _ :: _ :: _, valid => have := valid.length_le; simp at this

theorem before_disconnected {l r : List Bool} (valid : l ++ false :: r <+: [true,false]) : l = [true] := by
  match l, valid with
  | [], valid => simp [List.cons_prefix_cons] at valid
  | [b], valid =>
    obtain ⟨_,more⟩ := List.cons_prefix_cons.mp valid
    simp_all [List.cons_prefix_cons]
  | _ :: _ :: _, valid => have := valid.length_le; simp at this

end Events

section Keys

theorem contains_of_rel {R : ClientData → ClientData → Prop} {m m' : BTreeMap ClientId ClientData}
    (rel : ∀ id, Option.Rel R (m.get? id) (m'.get? id)) (id : ClientId) : m'.contains id = m.contains id := by
  unfold BTreeMap.contains
  have := rel id
  revert this
  cases m.get? id <;> cases m'.get? id <;> intro related <;> first | rfl | cases related

-- Every branch but the client commands keeps the set of connected clients.
theorem contains_step (lib : Lib) {w w' : World} {input : Input} {now : Instant}
    (other : ∀ cmd, input = .command cmd → clientEvent cmd = none) (ran : step lib w input now = some w') :
    ∀ id, w'.data.clients.contains id = w.data.clients.contains id := by
  obtain ⟨next,found,rfl⟩ := step_eq_some ran
  show ∀ id, next.data.clients.contains id = _
  cases input with
  | wallet event =>
    cases found
    cases event
    simp only [World.modify_data, processWalletEvent]
    split
    · exact @contains_of_rel (fun _ _ => True) _ _ fun id => by
        rw [sendNotifs_clients, BTreeMap.get?_mapValues]
        cases w.data.clients.get? id
        · exact .none
        · exact .some trivial
    · exact fun _ => rfl
  | ws event => cases found; exact contains_of_rel (processWsEvent_eventsOnly w event).sinks
  | command cmd =>
    have handler : ∀ id, cmd ≠ .clientConnected id ∧ cmd ≠ .clientDisconnected id := fun id =>
      ⟨fun same => (nomatch (same ▸ other cmd rfl : clientEvent (.clientConnected id) = none)),
        fun same => (nomatch (same ▸ other cmd rfl : clientEvent (.clientDisconnected id) = none))⟩
    exact contains_of_rel (Views.handler_viewsKept lib found handler).sinks

end Keys

-- What every reachable state keeps while the ids have not wrapped.
structure Inv (s : Sys) : Prop where
  counted : s.lastId = UInt64.ofNat s.spawned
  spawned : ∀ k, (s.tasks k).isSome ↔ k < s.spawned
  ids : ∀ k t, s.tasks k = some t → t.clientId = UInt64.ofNat (k + 1)
  sent : ∀ k t, s.tasks k = some t → eventsFor t.clientId (s.delivered ++ s.commands) = t.phase.sent
  unused : ∀ id, (∀ k t, s.tasks k = some t → t.clientId ≠ id) → eventsFor id (s.delivered ++ s.commands) = []
  clients : ∀ id, s.w.data.clients.contains id ↔ eventsFor id s.delivered = [true]

theorem inv_start (db : Db) : Inv (Sys.start db) :=
  ⟨rfl,fun _ => by simp [Sys.start],nofun,nofun,fun _ _ => rfl,fun _ => by simp [Sys.start, World.start, load,
    BTreeMap.contains]⟩

theorem ofNat_succ_inj {k k' : Nat} (bounded : k < 2 ^ 64) (bounded' : k' < 2 ^ 64)
    (same : UInt64.ofNat (k + 1) = UInt64.ofNat (k' + 1)) : k = k' := by
  have := congrArg UInt64.toNat same
  rw [u64_toNat_ofNat, u64_toNat_ofNat] at this
  omega

theorem ofNat_add_one (n : Nat) : UInt64.ofNat n + 1 = UInt64.ofNat (n + 1) := by
  apply UInt64.toNat.inj
  show (n % 2 ^ 64 + 1) % 2 ^ 64 = (n + 1) % 2 ^ 64
  omega

section Preserve

variable {s : Sys} (inv : Inv s)
include inv

-- While at most 2^64 tasks were spawned, no two of them share an id.
theorem Inv.unique (bounded : s.spawned ≤ 2 ^ 64) {k k' : Nat} {t t' : Task} (found : s.tasks k = some t)
    (found' : s.tasks k' = some t') (same : t.clientId = t'.clientId) : k = k' := by
  have below := (inv.spawned k).mp (by rw [found]; rfl)
  have below' := (inv.spawned k').mp (by rw [found']; rfl)
  rw [inv.ids k t found, inv.ids k' t' found'] at same
  exact ofNat_succ_inj (by omega) (by omega) same

theorem Inv.history (id : ClientId) : eventsFor id (s.delivered ++ s.commands) <+: [true,false] := by
  by_cases used : ∃ k t, s.tasks k = some t ∧ t.clientId = id
  · obtain ⟨k,t,found,rfl⟩ := used
    rw [inv.sent k t found]; exact phase_sent_valid t.phase
  · rw [inv.unused id fun k t found same => used ⟨k,t,found,same⟩]; exact List.nil_prefix

theorem inv_accept (fresh : s.spawned < 2 ^ 64) : Inv (accept s) := by
  have newId : s.lastId + 1 = UInt64.ofNat (s.spawned + 1) := by rw [inv.counted, ofNat_add_one]
  have unused : ∀ k t, s.tasks k = some t → t.clientId ≠ s.lastId + 1 := fun k t found same => by
    have below := (inv.spawned k).mp (by rw [found]; rfl)
    rw [inv.ids k t found, newId] at same
    have := ofNat_succ_inj (by omega) fresh same
    omega
  have old : ∀ {k t}, s.tasks k = some t → k ≠ s.spawned := fun found same =>
    absurd ((inv.spawned _).mp (by rw [found]; rfl)) (by omega)
  refine ⟨newId,fun k => ?_,fun k t found => ?_,fun k t found => ?_,fun id unseen => ?_,inv.clients⟩
  · by_cases here : k = s.spawned
    · subst here; simp [accept]
    · simp only [accept, Function.update_noteq here, inv.spawned k]; omega
  · by_cases here : k = s.spawned
    · subst here; simp only [accept, Function.update_same, Option.some.injEq] at found; rw [← found, newId]
    · simp only [accept, Function.update_noteq here] at found; exact inv.ids k t found
  · by_cases here : k = s.spawned
    · subst here; simp only [accept, Function.update_same, Option.some.injEq] at found; rw [← found]
      exact inv.unused _ unused
    · simp only [accept, Function.update_noteq here] at found; exact inv.sent k t found
  · exact inv.unused id fun k t found => unseen k t (by simp only [accept, Function.update_noteq (old found), found])

theorem inv_advance (bounded : s.spawned ≤ 2 ^ 64) {k : Nat} {t : Task} {phase : Phase} {sent : List Command}
    (found : s.tasks k = some t) (own : t.phase.sent ++ eventsFor t.clientId sent = phase.sent)
    (others : ∀ id, id ≠ t.clientId → eventsFor id sent = []) : Inv (advance s k t phase sent) := by
  have spawnedK := (inv.spawned k).mp (by rw [found]; rfl)
  refine ⟨inv.counted,fun k' => ?_,fun k' t' found' => ?_,fun k' t' found' => ?_,fun id unseen => ?_,inv.clients⟩
  · by_cases here : k' = k
    · subst here; simp [advance, spawnedK]
    · simp only [advance, Function.update_noteq here, inv.spawned k']
  · by_cases here : k' = k
    · subst here; simp only [advance, Function.update_same, Option.some.injEq] at found'
      rw [← found']; exact inv.ids k' t found
    · simp only [advance, Function.update_noteq here] at found'; exact inv.ids k' t' found'
  · rw [advance, ← List.append_assoc, eventsFor_append]
    by_cases here : k' = k
    · subst here; simp only [advance, Function.update_same, Option.some.injEq] at found'
      rw [← found', inv.sent k' t found]; exact own
    · simp only [advance, Function.update_noteq here] at found'
      have distinct : t'.clientId ≠ t.clientId := fun same => here (inv.unique bounded found' found same)
      rw [inv.sent k' t' found', others _ distinct, List.append_nil]
  · have distinct : id ≠ t.clientId := fun same => unseen k {t with phase := phase} (by simp [advance]) same.symm
    rw [advance, ← List.append_assoc, eventsFor_append, others id distinct, List.append_nil]
    refine inv.unused id fun k' t' found' => ?_
    by_cases here : k' = k
    · subst here; rw [found] at found'; cases found'; exact distinct.symm
    · exact unseen k' t' (by simp only [advance, Function.update_noteq here]; exact found')

theorem inv_request {cmd : Command} (other : clientEvent cmd = none) :
    Inv {s with commands := s.commands ++ [cmd]} := by
  have same : ∀ id, eventsFor id (s.delivered ++ (s.commands ++ [cmd])) = eventsFor id (s.delivered ++ s.commands) :=
    fun id => by rw [← List.append_assoc, eventsFor_append, eventsFor_of_none other, List.append_nil]
  exact ⟨inv.counted,inv.spawned,inv.ids,fun k t found => (same _).trans (inv.sent k t found),
    fun id unseen => (same id).trans (inv.unused id unseen),inv.clients⟩

theorem inv_deliver (lib : Lib) {cmd : Command} {rest : List Command} {w' : World} {now : Instant}
    (queued : s.commands = cmd :: rest) (ran : step lib s.w (.command cmd) now = some w') :
    Inv {s with commands := rest, w := w', delivered := s.delivered ++ [cmd]} := by
  have same : s.delivered ++ [cmd] ++ rest = s.delivered ++ s.commands := by rw [queued, List.append_assoc]; rfl
  refine ⟨inv.counted,inv.spawned,inv.ids,fun k t found => ?_,fun id unseen => ?_,fun id => ?_⟩
  · show eventsFor _ (s.delivered ++ [cmd] ++ rest) = _; rw [same]; exact inv.sent k t found
  · show eventsFor _ (s.delivered ++ [cmd] ++ rest) = _; rw [same]; exact inv.unused id unseen
  have valid := inv.history
  rw [queued] at valid
  rw [eventsFor_append]
  cases event : clientEvent cmd with
  | none =>
    rw [eventsFor_of_none event, List.append_nil, ← inv.clients id,
      contains_step lib (fun _ same => by cases same; exact event) ran id]
  | some e =>
    obtain ⟨next,found,rfl⟩ := step_eq_some ran
    show next.data.clients.contains id = true ↔ _
    cases cmd <;> cases event
    case clientConnected.refl clientId =>
      cases found
      have fresh : eventsFor clientId s.delivered = [] := by
        have := valid clientId
        rw [eventsFor_append, eventsFor_cons, eventsFor_connected, if_pos rfl, List.singleton_append] at this
        exact before_connected this
      simp only [World.modify_data, BTreeMap.contains, BTreeMap.get?_insert, eventsFor_connected]
      by_cases here : id = clientId
      · subst here; simp [fresh]
      · simp only [here, Ne.symm here, if_false, List.append_nil]; exact inv.clients id
    case clientDisconnected.refl clientId =>
      simp only [branch, processCommand] at found
      split at found
      · cases found
        have connected : eventsFor clientId s.delivered = [true] := by
          have := valid clientId
          rw [eventsFor_append, eventsFor_cons, eventsFor_disconnected, if_pos rfl, List.singleton_append] at this
          exact before_disconnected this
        simp only [World.modify_data, BTreeMap.contains, BTreeMap.get?_remove, eventsFor_disconnected]
        by_cases here : id = clientId
        · subst here; simp [connected]
        · simp only [here, Ne.symm here, if_false, List.append_nil]; exact inv.clients id
      · cases found

theorem inv_event (lib : Lib) {input : Input} {w' : World} {now : Instant}
    (other : ∀ cmd, input ≠ .command cmd) (ran : step lib s.w input now = some w') : Inv {s with w := w'} := by
  refine ⟨inv.counted,inv.spawned,inv.ids,inv.sent,inv.unused,fun id => ?_⟩
  rw [← inv.clients id, contains_step lib (fun cmd same => absurd same (other cmd)) ran id]

end Preserve

theorem spawned_le_step {lib : Lib} {s s' : Sys} {label : Label} (ran : sysStep lib s label = some s') :
    s.spawned ≤ s'.spawned := by
  cases label with
  | accept => cases ran; exact Nat.le_succ _
  | deliver now =>
    simp only [sysStep] at ran
    split at ran
    · cases ran
    · obtain ⟨_,_,rfl⟩ := Option.map_eq_some'.mp ran; exact le_rfl
  | event input now =>
    simp only [sysStep] at ran
    split at ran
    · cases ran
    · obtain ⟨_,_,rfl⟩ := Option.map_eq_some'.mp ran; exact le_rfl
  | _ =>
    obtain ⟨t,_,advanced⟩ := Option.bind_eq_some.mp ran
    split at advanced
    · cases advanced
      first | split | skip
      all_goals exact le_rfl
    · cases advanced

theorem inv_step (lib : Lib) {s s' : Sys} {label : Label} (inv : Inv s) (bounded : s'.spawned ≤ 2 ^ 64)
    (ran : sysStep lib s label = some s') : Inv s' := by
  have bounded' := (spawned_le_step ran).trans bounded
  cases label with
  | accept => cases ran; exact inv_accept inv (by simp only [accept] at bounded; omega)
  | handshake k ok =>
    obtain ⟨t,found,advanced⟩ := Option.bind_eq_some.mp ran
    split at advanced
    · rename_i waiting
      cases advanced
      cases ok
      · exact inv_advance inv bounded' found (by simp [waiting, Phase.sent]) fun _ _ => rfl
      · exact inv_advance inv bounded' found (by simp [waiting, Phase.sent])
          fun _ distinct => by simp [Ne.symm distinct]
    · cases advanced
  | request k cmd =>
    obtain ⟨t,found,requested⟩ := Option.bind_eq_some.mp ran
    split at requested
    · rename_i allowed; cases requested; exact inv_request inv allowed.2
    · cases requested
  | close k =>
    obtain ⟨t,found,advanced⟩ := Option.bind_eq_some.mp ran
    split at advanced
    · rename_i looping
      cases advanced
      exact inv_advance inv bounded' found (by simp [looping, Phase.sent]) fun _ distinct => by simp [Ne.symm distinct]
    · cases advanced
  | deliver now =>
    simp only [sysStep] at ran
    split at ran
    · cases ran
    · rename_i cmd rest queued
      obtain ⟨w',stepped,rfl⟩ := Option.map_eq_some'.mp ran
      exact inv_deliver inv lib queued stepped
  | event input now =>
    simp only [sysStep] at ran
    split at ran
    · cases ran
    · rename_i notCommand
      obtain ⟨w',stepped,rfl⟩ := Option.map_eq_some'.mp ran
      exact inv_event inv lib (fun cmd same => notCommand cmd same) stepped

theorem inv_reached (lib : Lib) (db : Db) {s : Sys} (reached : SysReached lib db s) (bounded : s.spawned ≤ 2 ^ 64) :
    Inv s := by
  induction reached with
  | start => exact inv_start db
  | step label _ ran ih => exact inv_step lib (ih ((spawned_le_step ran).trans bounded)) bounded ran

-- The prefixes of `[true,false]` are the histories of one id: none, connected, disconnected.
theorem connected_iff {l : List Bool} (valid : l <+: [true,false]) : l = [true] ↔ true ∈ l ∧ false ∉ l := by
  obtain ⟨r,joined⟩ := valid
  match l, joined with
  | [], _ => decide
  | [_], joined => cases joined; decide
  | [_,_], joined => cases joined; decide
  | _ :: _ :: _ :: _, joined => cases joined

-- Below the wrap each id connects at most once and disconnects at most once, after it connected,
-- so `clients.remove(&client_id).expect(..)` always finds the id.
theorem client_ids_connect_once (lib : Lib) (db : Db) {s : Sys} (reached : SysReached lib db s)
    (bounded : s.spawned ≤ 2 ^ 64) :
    (∀ id, eventsFor id (s.delivered ++ s.commands) <+: [true,false]) ∧
    (∀ id rest now, s.commands = .clientDisconnected id :: rest → (sysStep lib s (.deliver now)).isSome) ∧
    ∀ id, s.w.data.clients.contains id = true ↔ true ∈ eventsFor id s.delivered ∧ false ∉ eventsFor id s.delivered := by
  have inv := inv_reached lib db reached bounded
  refine ⟨inv.history,fun id rest now queued => ?_,fun id => ?_⟩
  · have valid := inv.history id
    rw [queued, eventsFor_append, eventsFor_cons, eventsFor_disconnected, if_pos rfl, List.singleton_append] at valid
    have connected := (inv.clients id).mpr (before_disconnected valid)
    simp [sysStep, queued, step, branch, processCommand, connected]
  · have valid := inv.history id
    rw [eventsFor_append] at valid
    rw [inv.clients id]
    exact connected_iff ((List.prefix_append _ _).trans valid)

theorem client_ids_connect_once_after_close :
    ∃ s, sysRun Lib.constant (Sys.start Db.empty) [.accept,.handshake 0 true,.deliver 0,.close 0] = some s ∧
      s.commands = [.clientDisconnected 1] ∧ s.w.data.clients.contains 1 = true ∧
      SysReached Lib.constant Db.empty s ∧ s.spawned ≤ 2 ^ 64 ∧
      (∀ id, eventsFor id (s.delivered ++ s.commands) <+: [true,false]) ∧
      (∀ id rest now, s.commands = .clientDisconnected id :: rest → (sysStep Lib.constant s (.deliver now)).isSome) ∧
      ∀ id, s.w.data.clients.contains id = true ↔ true ∈ eventsFor id s.delivered ∧ false ∉ eventsFor id s.delivered :=
  have ran : sysRun Lib.constant (Sys.start Db.empty) [.accept,.handshake 0 true,.deliver 0,.close 0] = some _ := rfl
  have reached := SysReached.of_sysRun .start ran
  ⟨_,ran,rfl,rfl,reached,by decide,client_ids_connect_once Lib.constant Db.empty reached (by decide)⟩

theorem accept_iterate (n : Nat) (s : Sys) : accept^[n] s =
    {s with
      lastId := s.lastId + UInt64.ofNat n
      spawned := s.spawned + n
      tasks := fun k => if s.spawned ≤ k ∧ k < s.spawned + n then
        some ⟨s.lastId + UInt64.ofNat (k - s.spawned + 1),.handshaking⟩ else s.tasks k} := by
  induction n with
  | zero =>
    obtain ⟨lastId,spawned,tasks,commands,w,delivered⟩ := s
    have unchanged : lastId + UInt64.ofNat 0 = lastId :=
      UInt64.toNat.inj (by rw [u64_toNat_add, u64_toNat_ofNat]; have := lastId.toNat_lt; omega)
    simp only [Function.iterate_zero, id, unchanged, Nat.add_zero]
    congr; funext k; rw [if_neg (by omega)]
  | succ n ih =>
    rw [Function.iterate_succ_apply', ih]
    have next : s.lastId + UInt64.ofNat n + 1 = s.lastId + UInt64.ofNat (n + 1) := UInt64.toNat.inj (by
      show ((s.lastId.toNat + n % 2 ^ 64) % 2 ^ 64 + 1) % 2 ^ 64 = (s.lastId.toNat + (n + 1) % 2 ^ 64) % 2 ^ 64
      omega)
    simp only [accept, next, ← Nat.add_assoc]
    congr; funext k
    by_cases here : k = s.spawned + n
    · subst here; rw [Function.update_same, if_pos (by omega), Nat.add_sub_cancel_left]
    · rw [Function.update_noteq here]
      by_cases within : s.spawned ≤ k ∧ k < s.spawned + n
      · rw [if_pos within, if_pos (by omega)]
      · rw [if_neg within, if_neg (by omega)]

theorem SysReached.of_accepts {lib : Lib} {db : Db} {s : Sys} (n : Nat) (reached : SysReached lib db s) :
    SysReached lib db (accept^[n] s) := by
  induction n with
  | zero => exact reached
  | succ n ih => rw [Function.iterate_succ_apply']; exact .step .accept ih rfl

-- At the 2^64+1-th accept `last_id` wraps to 1, and the second ClientDisconnected 1 panics.
theorem wrapped_id_disconnects_twice :
    ∃ s, SysReached Lib.constant Db.empty s ∧ s.spawned = 2 ^ 64 + 1 ∧
      s.commands = [.clientDisconnected 1] ∧ sysStep Lib.constant s (.deliver 0) = none := by
  have accepted := SysReached.of_accepts (2 ^ 64 + 1) (.start : SysReached Lib.constant Db.empty _)
  rw [accept_iterate] at accepted
  exact ⟨_,accepted.of_sysRun (show sysRun Lib.constant _
    [.handshake 0 true,.deliver 0,.handshake (2 ^ 64) true,.deliver 0,.close 0,.close (2 ^ 64),.deliver 0] = some _
    from rfl),rfl,rfl,rfl⟩

end SideswapManager.Connections
