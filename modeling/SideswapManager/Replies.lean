import Mathlib.Data.List.Forall2
import SideswapManager.Effects

namespace SideswapManager.Replies

-- The commands that carry a `res_sender`: all but the two a `client_run` task sends.
def isRequest : Command → Bool
  | .clientConnected _ | .clientDisconnected _ => false
  | _ => true

-- `reply` is of the kind `process_command` sends back for `cmd`.
def answers : Command → Reply → Bool
  | .newAddress .., .newAddress _ => true
  | .createTx .., .createTx _ => true
  | .sendTx .., .sendTx _ => true
  | .getQuote .., .getQuote _ => true
  | .acceptQuote .., .acceptQuote _ => true
  | .newPeg .., .newPeg _ => true
  | .delPeg .., .delPeg _ => true
  | .getMonitoredTxs .., .getMonitoredTxs _ => true
  | _, _ => false

def requestOf : Input → List Command
  | .command cmd => if isRequest cmd then [cmd] else []
  | _ => []

def requests : List (Input × Instant) → List Command
  | [] => []
  | (input,_) :: rest => requestOf input ++ requests rest

theorem replies_respond {α : Type} (result : World × α) (reply : α → Reply) :
    replies (respond result reply) = replies result.1 ++ [reply result.2] := replies_reply _

-- One branch sends one reply for a request command, of its kind, and none for anything else.
theorem replies_branch (lib : Lib) {w w' : World} {input : Input} (ran : branch lib w input = some w') :
    ∃ rs, replies w' = replies w ++ rs ∧ List.Forall₂ (fun cmd r => answers cmd r = true) (requestOf input) rs := by
  have answered {α : Type} (cmd : Command) (result : World × α) (reply : α → Reply)
      (quiet : replies result.1 = replies w) (kind : answers cmd (reply result.2) = true) :
      ∃ rs, replies (respond result reply) = replies w ++ rs ∧
        List.Forall₂ (fun cmd r => answers cmd r = true) [cmd] rs :=
    ⟨[reply result.2],by rw [replies_respond, quiet],.cons kind .nil⟩
  cases input with
  | wallet event => cases ran; exact ⟨[],(List.append_nil _).symm,.nil⟩
  | ws event => cases ran; exact ⟨[],(replies_processWsEvent event).trans (List.append_nil _).symm,.nil⟩
  | command cmd =>
    cases cmd with
    | newAddress userNote ans => cases ran; exact answered _ _ _ (newAddress_replies userNote ans) rfl
    | createTx recipients reply => cases ran; exact answered _ _ _ (createTx_replies lib recipients reply) rfl
    | sendTx req ans =>
      obtain ⟨⟨_,_⟩,sent,rfl⟩ := Option.map_eq_some'.mp ran
      exact answered _ _ _ (sendTx_replies lib sent) rfl
    | getQuote req ans => cases ran; exact answered _ _ _ (getQuote_replies lib req ans) rfl
    | acceptQuote req ans =>
      obtain ⟨⟨_,_⟩,accepted,rfl⟩ := Option.map_eq_some'.mp ran
      exact answered _ _ _ (acceptQuote_replies lib accepted) rfl
    | newPeg req ans => cases ran; exact answered _ _ _ (newPeg_replies req ans) rfl
    | delPeg orderId => cases ran; exact answered _ _ _ rfl rfl
    | getMonitoredTxs reply => cases ran; exact answered _ _ _ (getMonitoredTxs_replies reply) rfl
    | clientConnected => cases ran; exact ⟨[],(List.append_nil _).symm,.nil⟩
    | clientDisconnected =>
      simp only [branch, processCommand] at ran
      split at ran
      · cases ran; exact ⟨[],(List.append_nil _).symm,.nil⟩
      · cases ran

theorem replies_run (lib : Lib) {w w' : World} {inputs : List (Input × Instant)} (ran : run lib w inputs = some w') :
    ∃ rs, replies w' = replies w ++ rs ∧ List.Forall₂ (fun cmd r => answers cmd r = true) (requests inputs) rs := by
  induction inputs generalizing w with
  | nil => cases ran; exact ⟨[],(List.append_nil _).symm,.nil⟩
  | cons cycle rest ih =>
    obtain ⟨input,now⟩ := cycle
    obtain ⟨next,stepped,later⟩ := Option.bind_eq_some.mp ran
    obtain ⟨branched,found,rfl⟩ := step_eq_some stepped
    obtain ⟨rs₁,first,kinds₁⟩ := replies_branch lib found
    obtain ⟨rs₂,second,kinds₂⟩ := ih later
    refine ⟨rs₁ ++ rs₂,?_,List.rel_append kinds₁ kinds₂⟩
    rw [second, show replies (sweepQuotes branched now) = replies branched from rfl, first, List.append_assoc]

-- Every run that does not panic has answered each request command once, in order and in kind.
theorem every_request_answered_once (lib : Lib) (db : Db) (inputs : List (Input × Instant)) {w : World}
    (ran : run lib (World.start db) inputs = some w) :
    List.Forall₂ (fun cmd r => answers cmd r = true) (requests inputs) (replies w) := by
  obtain ⟨rs,replied,kinds⟩ := replies_run lib ran
  rwa [replied]

theorem every_request_answered_once_on_session :
    let inputs : List (Input × Instant) :=
      [(.command (.clientConnected 1),0),(.command (.delPeg 7),1),(.wallet (.utxos ⟨[]⟩),2),
        (.command (.getMonitoredTxs .sendFailed),3),(.command (.clientDisconnected 1),4)]
    ∃ w, run Lib.constant (World.start Db.empty) inputs = some w ∧
      List.Forall₂ (fun cmd r => answers cmd r = true) (requests inputs) (replies w) ∧ (replies w).length = 2 :=
  have ran : run Lib.constant (World.start Db.empty)
      [(.command (.clientConnected 1),0),(.command (.delPeg 7),1),(.wallet (.utxos ⟨[]⟩),2),
        (.command (.getMonitoredTxs .sendFailed),3),(.command (.clientDisconnected 1),4)] = some _ := rfl
  ⟨_,ran,every_request_answered_once _ _ _ ran,rfl⟩

end SideswapManager.Replies
