import SideswapManager.Effects

namespace SideswapManager.Monitoring

-- At the instant `s` was sent, `txid` was persisted and in `monitored_txs`.
def Monitored (s : Sent) (txid : Txid) : Prop :=
  (s.db.monitoredTxs.get? txid).isSome ∧ (s.data.monitoredTxs.get? txid).isSome

-- A broadcast or a TakerSign goes out only for a monitored txid.
def Covered (lib : Lib) (s : Sent) : Prop :=
  match s.msg with
  | .server (.broadcastTx tx) => Monitored s (lib.txid tx)
  | .wallet (.broadcastTx hex) => ∃ tx, hex = lib.serializeHex tx ∧ Monitored s (lib.txid tx)
  | .server (.takerSign quoteId _) => ∃ quote, s.data.quotes.get? quoteId = some quote ∧ Monitored s quote.txid
  | _ => True

def AllCovered (lib : Lib) (w : World) : Prop := ∀ s ∈ w.sent, Covered lib s

-- Drafts are kept under their own txid.
def CreatedKeyed (lib : Lib) (d : Data) : Prop :=
  ∀ k created, d.createdTxs.get? k = some created → lib.txid created.tx = k

section Log

variable {lib : Lib} {w : World}

@[simp] theorem allCovered_issue {msg : Outgoing} :
    AllCovered lib (w.issue msg) ↔ AllCovered lib w ∧ Covered lib ⟨msg,w.data,w.db⟩ := by
  simp [AllCovered, or_imp, forall_and]

@[simp] theorem allCovered_modify {f : Data → Data} : AllCovered lib (w.modify f) ↔ AllCovered lib w := .rfl

@[simp] theorem allCovered_newMonitoredTx {m : MonitoredTx} :
    AllCovered lib (newMonitoredTx w m) ↔ AllCovered lib w := .rfl

@[simp] theorem allCovered_setDb {db : Db} : AllCovered lib {w with db := db} ↔ AllCovered lib w := .rfl

theorem allCovered_request {α : Type} {cmd : WalletCommand} (reply : WalletReply α)
    (plain : ∀ d db, Covered lib ⟨.wallet cmd,d,db⟩) (covered : AllCovered lib w) :
    AllCovered lib (w.request cmd reply).1 := by
  cases reply <;> simp [World.request, covered, plain]

theorem allCovered_pegStatuses (orders : List OrderId) (covered : AllCovered lib w) :
    AllCovered lib (orders.foldl (fun w o => w.issue (.server (.pegStatus o))) w) := by
  induction orders generalizing w with
  | nil => exact covered
  | cons o rest ih => exact ih (allCovered_issue.mpr ⟨covered,trivial⟩)

theorem allCovered_processWsEvent (covered : AllCovered lib w) (event : WrappedResponse) :
    AllCovered lib (processWsEvent w event) := by
  rcases event with _ | _ | ⟨_,_ | (_ | _ | _)⟩ | (_ | _ | _)
  case connected => exact allCovered_pegStatuses _ (allCovered_issue.mpr ⟨covered,trivial⟩)
  all_goals exact covered

theorem allCovered_waitQuote (covered : AllCovered lib w) (quoteSubId : QuoteSubId) (events : List WrappedResponse) :
    AllCovered lib (waitQuote w quoteSubId events).1 := by
  induction events generalizing w with
  | nil => exact covered
  | cons event rest ih =>
    simp only [waitQuote]
    split
    · exact allCovered_processWsEvent covered event
    · exact ih (allCovered_processWsEvent covered event)

theorem allCovered_of_waitQuote {w' : World} {quoteSubId : QuoteSubId} {events : List WrappedResponse}
    {status : QuoteStatus} (waited : waitQuote w quoteSubId events = (w',status)) (covered : AllCovered lib w) :
    AllCovered lib w' := by
  have := allCovered_waitQuote covered quoteSubId events
  rwa [waited] at this

variable (covered : AllCovered lib w)
include covered

theorem allCovered_newAddress (userNote : Option String) (ans : NewAddressAnswers) :
    AllCovered lib (newAddress w userNote ans).1 := by
  have asked : AllCovered lib (w.issue (.wallet (.newAddress false none))) := allCovered_issue.mpr ⟨covered,trivial⟩
  obtain ⟨_ | _ | (_ | first),second⟩ := ans
  · exact covered
  iterate 2 exact asked
  simp only [newAddress, getNewAddress, World.request, WalletReply.result]
  split
  · rcases second with _ | _ | (_ | newAddr)
    · exact asked
    all_goals exact allCovered_issue.mpr ⟨asked,trivial⟩
  · exact asked

theorem allCovered_createTx (recipients : List ApiRecipient) (reply : WalletReply Transaction) :
    AllCovered lib (createTx lib w recipients reply).1 := by
  simp only [createTx]
  split
  · exact covered
  · rename_i converted _
    have asked : AllCovered lib (w.request (.createTx converted) reply).1 := allCovered_request _ (fun _ _ => trivial) covered
    generalize w.request (.createTx converted) reply = r at asked ⊢
    obtain ⟨w₁,_ | _⟩ := r <;> exact asked

theorem allCovered_finishQuote (req : GetQuoteReq) (ans : GetQuoteAnswers) (send recv : Asset)
    (baseTradeDir : TradeDir) (feeAsset : AssetType) (sendAmount : UInt64) (status : MktQuoteStatus) :
    AllCovered lib (finishQuote lib w req ans send recv baseTradeDir feeAsset sendAmount status).1 := by
  cases status with
  | success =>
    unfold finishQuote; dsimp only
    repeat' split
    all_goals first | exact covered | exact allCovered_issue.mpr ⟨covered,trivial⟩
  | lowBalance | error => exact covered

theorem allCovered_getQuote (req : GetQuoteReq) (ans : GetQuoteAnswers) : AllCovered lib (getQuote lib w req ans).1 := by
  have asked : AllCovered lib (w.request (.newAddress true none) ans.changeAddress).1 :=
    allCovered_request _ (fun _ _ => trivial) covered
  unfold getQuote getNewAddress
  generalize w.request (.newAddress true none) ans.changeAddress = r at asked ⊢
  obtain ⟨w₁,_ | _⟩ := r
  all_goals dsimp only; repeat' split
  all_goals first
    | exact covered
    | exact asked
    | exact allCovered_issue.mpr ⟨asked,trivial⟩
    | have wait := ‹waitQuote _ _ _ = _›
      have waited := allCovered_of_waitQuote wait (allCovered_issue.mpr ⟨asked,trivial⟩)
      first | exact waited | exact allCovered_finishQuote waited _ _ _ _ _ _ _ _

theorem allCovered_newPeg (req : NewPegReq) (ans : NewPegAnswers) : AllCovered lib (newPeg w req ans).1 := by
  have pegged : AllCovered lib (w.issue (.server (.peg req.recvAddr req.pegIn req.blocks))) :=
    allCovered_issue.mpr ⟨covered,trivial⟩
  rcases ans with ⟨_ | resp,_ | status⟩
  all_goals first | exact pegged | exact allCovered_issue.mpr ⟨pegged,trivial⟩

theorem allCovered_getMonitoredTxs (reply : WalletReply (List WalletTx)) :
    AllCovered lib (getMonitoredTxs w reply).1 := by
  rcases reply with _ | _ | (_ | txs) <;> simp [getMonitoredTxs, World.request, WalletReply.result, covered, Covered]

-- SendTx persists and records the monitored tx before either broadcast goes out.
theorem allCovered_sendTx (keyed : CreatedKeyed lib w.data) {req : SendTxReq} {ans : SendTxAnswers} {w' : World}
    {r : Except Error SendTxResp} (ran : sendTx lib w req ans = some (w',r)) : AllCovered lib w' := by
  unfold sendTx at ran
  split at ran
  · cases ran; exact covered
  rename_i created found
  have monitored (msg : Outgoing) : Monitored ⟨msg,(newMonitoredTx (w.issue (.server (.checkOutpoints
      (created.tx.input.map (·.previousOutput))))) ⟨req.txid,some created.note,req.userNote⟩).data,
      (newMonitoredTx (w.issue (.server (.checkOutpoints (created.tx.input.map (·.previousOutput)))))
        ⟨req.txid,some created.note,req.userNote⟩).db⟩ (lib.txid created.tx) := by
    simp [Monitored, newMonitoredTx, Db.addMonitoredTx, keyed _ _ found]
  split at ran
  · cases ran; exact covered
  split at ran
  · cases ran; exact allCovered_issue.mpr ⟨covered,trivial⟩
  split at ran <;> cases ran
  · exact allCovered_issue.mpr ⟨allCovered_issue.mpr ⟨covered,trivial⟩,monitored _⟩
  · exact allCovered_issue.mpr ⟨allCovered_issue.mpr ⟨allCovered_issue.mpr ⟨covered,trivial⟩,monitored _⟩,
      created.tx,rfl,monitored _⟩

-- AcceptQuote persists and records the quote's txid before TakerSign goes out.
theorem allCovered_acceptQuote {req : AcceptQuoteReq} {ans : AcceptQuoteAnswers} {w' : World}
    {r : Except Error Txid} (ran : acceptQuote lib w req ans = some (w',r)) : AllCovered lib w' := by
  unfold acceptQuote at ran
  split at ran
  · cases ran; exact covered
  rename_i quote found
  have signed : Covered lib ⟨.server (.takerSign req.quoteId (lib.encodePset quote.pset)),
      (newMonitoredTx w ⟨quote.txid,some quote.note,req.userNote⟩).data,
      (newMonitoredTx w ⟨quote.txid,some quote.note,req.userNote⟩).db⟩ :=
    ⟨quote,found,by simp [Monitored, newMonitoredTx, Db.addMonitoredTx]⟩
  split at ran
  · split at ran
    · cases ran; exact allCovered_issue.mpr ⟨covered,signed⟩
    · split at ran <;> cases ran
      exact allCovered_issue.mpr ⟨covered,signed⟩
  · cases ran; exact covered

end Log

theorem createdKeyed_of_eq {lib : Lib} {d d' : Data} (same : d'.createdTxs = d.createdTxs)
    (keyed : CreatedKeyed lib d) : CreatedKeyed lib d' :=
  fun k created found => keyed k created (same ▸ found)

-- Only CreateTx adds a draft, under the txid of its transaction; SendTx only clears them.
theorem createdKeyed_branch (lib : Lib) {w w' : World} {input : Input} (keyed : CreatedKeyed lib w.data)
    (ran : branch lib w input = some w') : CreatedKeyed lib w'.data := by
  cases input with
  | wallet event => cases ran; exact createdKeyed_of_eq (congrArg Data.createdTxs (processWalletEvent_rest lib w.data event)) keyed
  | ws event => cases ran; exact createdKeyed_of_eq (congrArg Data.createdTxs (processWsEvent_eventsOnly w event).rest) keyed
  | command cmd =>
    change processCommand lib w cmd = some w' at ran
    by_cases client : ∃ id, cmd = .clientConnected id ∨ cmd = .clientDisconnected id
    · obtain ⟨id,rfl | rfl⟩ := client
      · cases ran; exact keyed
      · simp only [processCommand] at ran
        split at ran
        · cases ran; exact keyed
        · cases ran
    obtain ⟨d,only,write⟩ := handler_cases lib w ran fun id => ⟨fun same => client ⟨id,.inl same⟩,
      fun same => client ⟨id,.inr same⟩⟩
    have drafts : CreatedKeyed lib d := createdKeyed_of_eq (only.frame Data.createdTxs fun _ _ _ => rfl) keyed
    rcases write with ⟨data,_⟩ | ⟨_,_,_,data,_⟩ | ⟨tx,_,data,_⟩ | ⟨_,cleared,data,_⟩ | ⟨_,_,data,_⟩ | ⟨_,data,_⟩ |
      ⟨_,data,_⟩
    · exact createdKeyed_of_eq (by rw [data]) drafts
    · exact createdKeyed_of_eq (by rw [data]) drafts
    · intro k created found
      rw [data, BTreeMap.get?_insert] at found
      split at found
      · cases found; exact ‹k = _›.symm
      · exact drafts k created found
    · cases cleared
      · exact createdKeyed_of_eq (by rw [data]; rfl) drafts
      · intro k created found
        rw [data] at found
        cases found
    all_goals exact createdKeyed_of_eq (by rw [data]) drafts

theorem allCovered_branch (lib : Lib) {w w' : World} {input : Input} (keyed : CreatedKeyed lib w.data)
    (covered : AllCovered lib w) (ran : branch lib w input = some w') : AllCovered lib w' := by
  have replied {α : Type} (r : World × α) (reply : α → Reply) (covered : AllCovered lib r.1) :
      AllCovered lib (respond r reply) := allCovered_issue.mpr ⟨covered,trivial⟩
  cases input with
  | wallet => cases ran; exact covered
  | ws event => cases ran; exact allCovered_processWsEvent covered event
  | command cmd =>
    cases cmd with
    | newAddress => cases ran; exact replied _ _ (allCovered_newAddress covered _ _)
    | createTx => cases ran; exact replied _ _ (allCovered_createTx covered _ _)
    | sendTx =>
      obtain ⟨⟨_,_⟩,sent,rfl⟩ := Option.map_eq_some'.mp ran
      exact replied _ _ (allCovered_sendTx covered keyed sent)
    | getQuote => cases ran; exact replied _ _ (allCovered_getQuote covered _ _)
    | acceptQuote =>
      obtain ⟨⟨_,_⟩,accepted,rfl⟩ := Option.map_eq_some'.mp ran
      exact replied _ _ (allCovered_acceptQuote covered accepted)
    | newPeg => cases ran; exact replied _ _ (allCovered_newPeg covered _ _)
    | delPeg => cases ran; exact replied _ _ covered
    | getMonitoredTxs => cases ran; exact replied _ _ (allCovered_getMonitoredTxs covered _)
    | clientConnected => cases ran; exact covered
    | clientDisconnected =>
      simp only [branch, processCommand] at ran
      split at ran
      · cases ran; exact covered
      · cases ran

theorem broadcasts_follow_monitoring (lib : Lib) (db : Db) {w : World} (reached : Reached lib (fun _ => True) db w) :
    (∀ k created, w.data.createdTxs.get? k = some created → lib.txid created.tx = k) ∧
    ∀ s ∈ w.sent,
      (∀ tx, s.msg = .server (.broadcastTx tx) → Monitored s (lib.txid tx)) ∧
      (∀ hex, s.msg = .wallet (.broadcastTx hex) → ∃ tx, hex = lib.serializeHex tx ∧ Monitored s (lib.txid tx)) ∧
      (∀ quoteId pset, s.msg = .server (.takerSign quoteId pset) →
        ∃ quote, s.data.quotes.get? quoteId = some quote ∧ Monitored s quote.txid) := by
  have invariant : CreatedKeyed lib w.data ∧ AllCovered lib w := by
    induction reached with
    | start => exact ⟨fun _ _ found => (nomatch found),fun _ member => (nomatch member)⟩
    | cycle _ _ ran ih =>
      obtain ⟨next,found,rfl⟩ := step_eq_some ran
      exact ⟨(createdKeyed_branch lib ih.1 found :),(allCovered_branch lib ih.1 ih.2 found :)⟩
  refine ⟨invariant.1,fun s member => ?_⟩
  have covered := invariant.2 s member
  unfold Covered at covered
  refine ⟨fun tx msg => ?_,fun hex msg => ?_,fun quoteId pset msg => ?_⟩ <;> rw [msg] at covered <;> exact covered

theorem broadcasts_follow_monitoring_after_send :
    ∃ w, run Lib.constant (World.start Db.empty) [(.wallet (.utxos ⟨[⟨1,0,5,100⟩]⟩),0),
      (.command (.createTx [] (.reply (.ok ⟨[⟨⟨1,0⟩⟩],[]⟩))),0),
      (.command (.sendTx ⟨0,none⟩ ⟨.ok (),.ok 0,.reply (.ok 0)⟩),0)] = some w ∧
    w.sent.map Sent.msg = [.wallet (.createTx []),.reply (.createTx (.ok ⟨0,0⟩)),
      .server (.checkOutpoints [⟨1,0⟩]),.server (.broadcastTx ⟨[⟨⟨1,0⟩⟩],[]⟩),.wallet (.broadcastTx ""),
      .reply (.sendTx (.ok ⟨.success,.success⟩))] ∧
    Reached Lib.constant (fun _ => True) Db.empty w ∧
    (∀ k created, w.data.createdTxs.get? k = some created → Lib.constant.txid created.tx = k) ∧
    ∀ s ∈ w.sent,
      (∀ tx, s.msg = .server (.broadcastTx tx) → Monitored s (Lib.constant.txid tx)) ∧
      (∀ hex, s.msg = .wallet (.broadcastTx hex) →
        ∃ tx, hex = Lib.constant.serializeHex tx ∧ Monitored s (Lib.constant.txid tx)) ∧
      (∀ quoteId pset, s.msg = .server (.takerSign quoteId pset) →
        ∃ quote, s.data.quotes.get? quoteId = some quote ∧ Monitored s quote.txid) :=
  have ran : run Lib.constant (World.start Db.empty) [(.wallet (.utxos ⟨[⟨1,0,5,100⟩]⟩),0),
      (.command (.createTx [] (.reply (.ok ⟨[⟨⟨1,0⟩⟩],[]⟩))),0),
      (.command (.sendTx ⟨0,none⟩ ⟨.ok (),.ok 0,.reply (.ok 0)⟩),0)] = some _ := rfl
  have reached := Reached.of_run .start (fun _ _ => trivial) ran
  ⟨_,ran,rfl,reached,broadcasts_follow_monitoring Lib.constant Db.empty reached⟩

end SideswapManager.Monitoring
