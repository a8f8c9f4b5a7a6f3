import SideswapManager.Connections

namespace SideswapManager.Gateway

open Connections

inductive Message where
  | text (msg : String)
  | binary
  | ping
  | pong
  | close
  | frame

structure To (ReqId Req : Type) where
  id : ReqId
  req : Req

inductive ErrorCode where
  | invalidRequest
  | other (code : String)

structure ApiError where
  code : ErrorCode
  text : String
  details : Option String

inductive From (ReqId Resp : Type) where
  | resp (id : ReqId) (resp : Resp)
  | error (id : ReqId) (err : ApiError)
  | notif (notif : Notif)

structure Codec (ReqId Req : Type) where
  parseTo : String → Except String (To ReqId Req)
  parseIdOnly : String → Except String ReqId
  apiError : Error → ApiError

inductive ReqReply (Resp : Type) where
  | sendFailed
  | recvFailed
  | reply (res : Except Error Resp)

def ReqReply.result {Resp : Type} : ReqReply Resp → Except Error Resp
  | .sendFailed => .error (.channel "sending on a closed channel")
  | .recvFailed => .error (.channel "channel closed")
  | .reply res => res

structure Session (ReqId Req Resp : Type) where
  frames : List (From ReqId Resp)
  requests : List Req

-- One turn of `client_loop`'s `select!`.
inductive Selected (Resp : Type) where
  | msg (next : Option (Except String Message)) (reply : ReqReply Resp)
  | notif (next : Option Notif)

section Codec

variable {ReqId Req Resp : Type} [Inhabited ReqId] (codec : Codec ReqId Req)

def sendFrom (s : Session ReqId Req Resp) (frame : From ReqId Resp) : Session ReqId Req Resp :=
  {s with frames := s.frames ++ [frame]}

def processWsReq (s : Session ReqId Req Resp) (req : Req) (reply : ReqReply Resp) :
    Session ReqId Req Resp × Except Error Resp :=
  match reply with
  | .sendFailed => (s,reply.result)
  | _ => ({s with requests := s.requests ++ [req]},reply.result)

def processToMsg (s : Session ReqId Req Resp) (toMsg : To ReqId Req) (reply : ReqReply Resp) :
    Session ReqId Req Resp :=
  match processWsReq s toMsg.req reply with
  | (s,.ok resp) => sendFrom s (.resp toMsg.id resp)
  | (s,.error err) => sendFrom s (.error toMsg.id (codec.apiError err))

def getReqId (msg : String) : ReqId :=
  match codec.parseIdOnly msg with
  | .ok id => id
  | .error _ => default

def processWsMsg (s : Session ReqId Req Resp) (msg : Message) (reply : ReqReply Resp) : Session ReqId Req Resp :=
  match msg with
  | .text msg =>
    match codec.parseTo msg with
    | .ok toMsg => processToMsg codec s toMsg reply
    | .error err => sendFrom s (.error (getReqId codec msg) ⟨.invalidRequest,"invalid JSON: " ++ err,none⟩)
  | .binary | .ping | .pong | .close | .frame => s

-- `true` once the loop has broken out; a Close message only logs.
def clientLoop (s : Session ReqId Req Resp) : List (Selected Resp) → Session ReqId Req Resp × Bool
  | [] => (s,false)
  | .msg (some (.ok msg)) reply :: rest => clientLoop (processWsMsg codec s msg reply) rest
  | .msg _ _ :: _ => (s,true)
  | .notif (some notif) :: rest => clientLoop (sendFrom s (.notif notif)) rest
  | .notif none :: _ => (s,true)

-- Nothing after a failed handshake; ClientDisconnected once the loop has broken out.
def clientRun (toCommand : Req → Command) (clientId : ClientId) (handshake : Bool)
    (turns : List (Selected Resp)) : List Command × Session ReqId Req Resp :=
  if handshake then
    let (s,broke) := clientLoop codec ⟨[],[]⟩ turns
    (.clientConnected clientId :: s.requests.map toCommand ++ if broke then [.clientDisconnected clientId] else [],s)
  else ([],⟨[],[]⟩)

end Codec

def Message.text? : Message → Option String
  | .text msg => some msg
  | _ => none

section Answers

variable {ReqId Req Resp : Type} [Inhabited ReqId] (codec : Codec ReqId Req)

def replyId (msg : String) : ReqId :=
  match codec.parseTo msg with
  | .ok toMsg => toMsg.id
  | .error _ => getReqId codec msg

def textsTaken : List (Selected Resp) → List String
  | [] => []
  | .msg (some (.ok msg)) _ :: rest => msg.text?.toList ++ textsTaken rest
  | .msg _ _ :: _ => []
  | .notif (some _) :: rest => textsTaken rest
  | .notif none :: _ => []

def notifsTaken : List (Selected Resp) → List Notif
  | [] => []
  | .msg (some (.ok _)) _ :: rest => notifsTaken rest
  | .msg _ _ :: _ => []
  | .notif (some notif) :: rest => notif :: notifsTaken rest
  | .notif none :: _ => []

def From.answering : From ReqId Resp → Option ReqId
  | .resp id _ | .error id _ => some id
  | .notif _ => none

def From.notified : From ReqId Resp → Option Notif
  | .notif pushed => some pushed
  | _ => none

theorem processWsMsg_frames (s : Session ReqId Req Resp) (msg : Message) (reply : ReqReply Resp) :
    (processWsMsg codec s msg reply).frames.filterMap From.answering =
      s.frames.filterMap From.answering ++ (msg.text?.map (replyId codec)).toList ∧
    (processWsMsg codec s msg reply).frames.filterMap From.notified = s.frames.filterMap From.notified := by
  cases msg with
  | text msg =>
    simp only [processWsMsg, Message.text?]
    cases parsed : codec.parseTo msg with
    | ok toMsg =>
      rcases reply with _ | _ | (_ | _) <;>
        simp [processToMsg, processWsReq, ReqReply.result, sendFrom, From.answering, From.notified, replyId, parsed]
    | error err => simp [sendFrom, From.answering, From.notified, replyId, parsed]
  | _ => simp [processWsMsg, Message.text?]

-- The frames answer the Text messages taken one for one, in order, and forward the notifications.
theorem client_loop_answers_each_text (s : Session ReqId Req Resp) (turns : List (Selected Resp)) :
    (clientLoop codec s turns).1.frames.filterMap From.answering =
      s.frames.filterMap From.answering ++ (textsTaken turns).map (replyId codec) ∧
    (clientLoop codec s turns).1.frames.filterMap From.notified =
      s.frames.filterMap From.notified ++ notifsTaken turns := by
  induction s, turns using clientLoop.induct codec with
  | case1 s => simp [clientLoop, textsTaken, notifsTaken]
  | case2 s msg reply rest ih =>
    obtain ⟨answered,notified⟩ := processWsMsg_frames codec s msg reply
    rw [clientLoop, textsTaken, notifsTaken, ih.1, ih.2, answered, notified]
    cases msg.text? <;> simp
  | case3 s next reply rest other =>
    rcases next with _ | (_ | msg)
    iterate 2 simp [clientLoop, textsTaken, notifsTaken]
    exact absurd rfl (other msg)
  | case4 s notif rest ih =>
    rw [clientLoop, textsTaken, notifsTaken, ih.1, ih.2]
    simp [sendFrom, From.answering, From.notified]
  | case5 s rest => simp [clientLoop, textsTaken, notifsTaken]

end Answers

theorem sysRun_append (lib : Lib) (s : Sys) (labels labels' : List Label) :
    sysRun lib s (labels ++ labels') = (sysRun lib s labels).bind (sysRun lib · labels') := by
  induction labels generalizing s with
  | nil => rfl
  | cons label rest ih =>
    show (sysStep lib s label).bind (sysRun lib · (rest ++ labels')) =
      ((sysStep lib s label).bind (sysRun lib · rest)).bind (sysRun lib · labels')
    simp only [ih, Option.bind_assoc]

theorem sysRun_requests (lib : Lib) {k : Nat} {t : Task} (cmds : List Command)
    (requestsOnly : ∀ cmd ∈ cmds, clientEvent cmd = none) {s : Sys} (found : s.tasks k = some t)
    (looping : t.phase = .looping) :
    sysRun lib s (cmds.map (.request k)) = some {s with commands := s.commands ++ cmds} := by
  induction cmds generalizing s with
  | nil => simp [sysRun]
  | cons cmd rest ih =>
    have stepped : sysStep lib s (.request k cmd) = some {s with commands := s.commands ++ [cmd]} := by
      simp [sysStep, found, looping, requestsOnly cmd (List.mem_cons_self _ _)]
    rw [List.map_cons, sysRun, stepped, Option.some_bind,
      ih (fun c member => requestsOnly c (List.mem_cons_of_mem _ member)) (s := {s with commands := s.commands ++ [cmd]}) found]
    simp

section Refinement

variable {ReqId Req Resp : Type} [Inhabited ReqId] (codec : Codec ReqId Req) (toCommand : Req → Command)

-- The abstract task's labels that one run of `client_run` as task `k` stands for.
def taskLabels (k : Nat) (handshake : Bool) (turns : List (Selected Resp)) : List Label :=
  .handshake k handshake ::
    if handshake then
      let (s,broke) := clientLoop codec ⟨[],[]⟩ turns
      (s.requests.map toCommand).map (.request k) ++ if broke then [.close k] else []
    else []

def endPhase (handshake : Bool) (turns : List (Selected Resp)) : Phase :=
  if handshake then if (clientLoop codec (⟨[],[]⟩ : Session ReqId Req Resp) turns).2 then .closed else .looping
  else .failed

-- A run of `client_run` is a run of the abstract task, whatever the turns.
theorem client_run_refines_task (lib : Lib) (requestsOnly : ∀ req, clientEvent (toCommand req) = none)
    {s : Sys} {k : Nat} {t : Task} (found : s.tasks k = some t) (waiting : t.phase = .handshaking)
    (handshake : Bool) (turns : List (Selected Resp)) :
    sysRun lib s (taskLabels codec toCommand k handshake turns) =
      some {s with
        tasks := Function.update s.tasks k (some {t with phase := endPhase codec handshake turns})
        commands := s.commands ++ (clientRun codec toCommand t.clientId handshake turns).1} := by
  cases handshake with
  | false => simp [taskLabels, endPhase, clientRun, sysRun, sysStep, found, waiting, advance]
  | true =>
    simp only [taskLabels, endPhase, clientRun, if_true]
    generalize clientLoop codec ⟨[],[]⟩ turns = result
    obtain ⟨session,broke⟩ := result
    have shaken : sysStep lib s (.handshake k true) = some (advance s k t .looping [.clientConnected t.clientId]) := by
      simp [sysStep, found, waiting]
    have requested := sysRun_requests lib (k := k) (t := {t with phase := .looping}) (session.requests.map toCommand)
      (fun cmd member => by obtain ⟨req,_,rfl⟩ := List.mem_map.mp member; exact requestsOnly req)
      (s := advance s k t .looping [.clientConnected t.clientId]) (by simp [advance]) rfl
    rw [sysRun, shaken, Option.some_bind, sysRun_append, requested, Option.some_bind]
    cases broke
    · simp [sysRun, advance, Function.update_idem]
    · simp [sysRun, sysStep, advance, Function.update_idem]

end Refinement

theorem client_run_refines_task_on_request_then_close :
    let codec : Codec Nat Unit := ⟨fun _ => .ok ⟨5,()⟩,fun _ => .ok 5,fun _ => ⟨.invalidRequest,"",none⟩⟩
    let turns : List (Selected Unit) := [.msg (some (.ok (.text "r"))) (.reply (.ok ())),.msg none .recvFailed]
    let s := accept (Sys.start Db.empty)
    (∀ _ : Unit, clientEvent (.delPeg 7) = none) ∧ s.tasks 0 = some ⟨1,.handshaking⟩ ∧
    sysRun Lib.constant s (taskLabels codec (fun _ => .delPeg 7) 0 true turns) =
      some {s with
        tasks := Function.update s.tasks 0 (some ⟨1,endPhase codec true turns⟩)
        commands := s.commands ++ (clientRun codec (fun _ => .delPeg 7) 1 true turns).1} ∧
    (clientRun codec (fun _ => .delPeg 7) 1 true turns).1 = [.clientConnected 1,.delPeg 7,.clientDisconnected 1] :=
  ⟨fun _ => rfl,rfl,client_run_refines_task _ (fun _ : Unit => Command.delPeg 7) Lib.constant (fun _ => rfl) rfl rfl true _,rfl⟩

end SideswapManager.Gateway
