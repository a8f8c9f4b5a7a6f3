import SideswapManager.Coordinator

namespace SideswapManager.QuoteWait

-- The events up to and including the first Disconnected or matching Quote, or all of them.
def consumedEvents (quoteSubId : QuoteSubId) : List WrappedResponse → List WrappedResponse
  | [] => []
  | event :: rest => if (quoteStatusOf quoteSubId event).isSome then [event] else event :: consumedEvents quoteSubId rest

def settledStatus (quoteSubId : QuoteSubId) : List WrappedResponse → QuoteStatus
  | [] => .timeout
  | event :: rest => (quoteStatusOf quoteSubId event).getD (settledStatus quoteSubId rest)

-- The two loops are compared on all but the quote table, which only the main loop sweeps.
def View (w : World) : Data × Db × List Outgoing := ({w.data with quotes := ∅},w.db,w.sent.map Sent.msg)

theorem view_sweep (w : World) (now : Instant) : View (sweepQuotes w now) = View w := rfl

theorem view_ws_connected {w₁ w₂ : World} (same : View w₁ = View w₂) :
    View (processWsConnected w₁) = View (processWsConnected w₂) := by
  simp only [View, Prod.mk.injEq, processWsConnected_data, processWsConnected_db] at same ⊢
  have pegs : w₁.data.pegs = w₂.data.pegs := by simpa using congrArg (fun d : Data => d.pegs) same.1
  refine ⟨same.1,same.2.1,?_⟩
  simp [processWsConnected_sent, same.2.2, pegs]

theorem view_ws_event {w₁ w₂ : World} (same : View w₁ = View w₂) (event : WrappedResponse) :
    View (processWsEvent w₁ event) = View (processWsEvent w₂ event) := by
  have quotesFree (f : Data → Data) (commutes : ∀ d, {f d with quotes := ∅} = f {d with quotes := ∅}) :
      View (w₁.modify f) = View (w₂.modify f) := by
    simp only [View, Prod.mk.injEq] at same ⊢
    simp only [World.modify_data, World.modify_db, World.modify_sent, commutes, same, and_self]
  cases event with
  | connected => exact view_ws_connected same
  | disconnected => exact same
  | response _ res =>
    rcases res with _ | (resp | status | _)
    · exact same
    · cases resp <;> first | exact same | exact quotesFree _ fun _ => rfl
    · exact quotesFree _ fun d => by unfold processPegStatus; split <;> rfl
    · exact same
  | notification notif =>
    cases notif with
    | pegStatus => exact quotesFree _ fun d => by unfold processPegStatus; split <;> rfl
    | market n => cases n <;> first | exact same | exact quotesFree _ fun _ => rfl
    | other => exact same

-- The wait loop hands each consumed event to `process_ws_event` once, in order.
theorem wait_consumes (w : World) (quoteSubId : QuoteSubId) (events : List WrappedResponse) :
    waitQuote w quoteSubId events =
      ((consumedEvents quoteSubId events).foldl processWsEvent w,settledStatus quoteSubId events) := by
  induction events generalizing w with
  | nil => rfl
  | cons event rest ih =>
    simp only [waitQuote, consumedEvents, settledStatus]
    cases quoteStatusOf quoteSubId event with
    | some status => rfl
    | none => exact ih _

theorem quoteStatusOf_eq_quote (quoteSubId : QuoteSubId) (event : WrappedResponse) (notif : QuoteNotif) :
    quoteStatusOf quoteSubId event = some (.quote notif) ↔
      event = .notification (.market (.quote notif)) ∧ notif.quoteSubId = quoteSubId := by
  unfold quoteStatusOf
  split <;> simp_all
  constructor
  · rintro ⟨_,rfl⟩; exact ⟨rfl,‹_›⟩
  · rintro ⟨rfl,_⟩; exact ⟨‹_›,rfl⟩

-- Only a Disconnected event or a Quote notification of the subscription settles the wait.
theorem quoteStatusOf_isSome (quoteSubId : QuoteSubId) (event : WrappedResponse) :
    (quoteStatusOf quoteSubId event).isSome ↔
      event = .disconnected ∨ ∃ notif, event = .notification (.market (.quote notif)) ∧ notif.quoteSubId = quoteSubId := by
  unfold quoteStatusOf
  split <;> simp_all

theorem settled_quote_iff (quoteSubId : QuoteSubId) (events : List WrappedResponse) (notif : QuoteNotif) :
    settledStatus quoteSubId events = .quote notif ↔
      .notification (.market (.quote notif)) ∈ consumedEvents quoteSubId events ∧ notif.quoteSubId = quoteSubId := by
  induction events with
  | nil => simp [settledStatus, consumedEvents]
  | cons event rest ih =>
    simp only [settledStatus, consumedEvents]
    cases settles : quoteStatusOf quoteSubId event with
    | some status =>
      simp only [Option.getD_some, Option.isSome_some, if_true, List.mem_singleton]
      rw [← Option.some.injEq, ← settles, quoteStatusOf_eq_quote, eq_comm]
    | none =>
      simp only [Option.getD_none, Option.isSome_none, Bool.false_eq_true, if_false, List.mem_cons, ih]
      constructor
      · exact fun ⟨inRest,forSub⟩ => ⟨.inr inRest,forSub⟩
      · rintro ⟨rfl | inRest,forSub⟩
        · simp [quoteStatusOf, forSub] at settles
        · exact ⟨inRest,forSub⟩

-- One main-loop cycle per event, each with its own sweep, reaches the view of the fold.
theorem main_loop_view (lib : Lib) (events : List WrappedResponse) (nows : List Instant)
    (cycles : nows.length = events.length) (w₀ w : World) (same : View w₀ = View w) :
    ∃ w', run lib w₀ ((events.map Input.ws).zip nows) = some w' ∧
      View w' = View (events.foldl processWsEvent w) := by
  induction events generalizing nows w₀ w with
  | nil => exact ⟨w₀,by cases nows <;> rfl,same⟩
  | cons event rest ih =>
    obtain _ | ⟨now,nows⟩ := nows
    · cases cycles
    obtain ⟨w',ran,view⟩ := ih nows (by simpa using cycles) _ (processWsEvent w event)
      ((view_sweep _ now).trans (view_ws_event same event))
    exact ⟨w',by simpa [run, step, branch] using ran,view⟩

end SideswapManager.QuoteWait
