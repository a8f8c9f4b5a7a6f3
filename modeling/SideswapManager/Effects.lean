import SideswapManager.Coordinator

namespace SideswapManager

-- `w'` holds the state and persistence of `w`: at most messages were sent in between.
def Quiet (w w' : World) : Prop := w'.data = w.data ∧ w'.db = w.db

-- A client sink `c'` continues `c` with peg statuses only.
def Extends (c c' : ClientData) : Prop :=
  ∃ more, c'.notifs = c.notifs ++ more ∧ ∀ n ∈ more, ∃ status, n = .pegStatus status

theorem sinks_trans {x y z : Option ClientData} :
    Option.Rel Extends x y → Option.Rel Extends y z → Option.Rel Extends x z
  | .none,.none => .none
  | .some ⟨first,extended,pegs⟩,.some ⟨second,extended',pegs'⟩ =>
    .some ⟨first ++ second,by rw [extended',extended,List.append_assoc],fun n member =>
      (List.mem_append.mp member).elim (pegs n) (pegs' n)⟩

theorem sinks_refl : ∀ x : Option ClientData, Option.Rel Extends x x
  | none => .none
  | some c => .some ⟨[],(List.append_nil c.notifs).symm,nofun⟩

-- What server events may change: the market list, the peg statuses, and the client sinks,
-- which keep their ids and only get notifications appended.
structure EventsOnly (d d' : Data) : Prop where
  rest : d' = {d with markets := d'.markets, pegStatuses := d'.pegStatuses, clients := d'.clients}
  sinks : ∀ id, Option.Rel Extends (d.clients.get? id) (d'.clients.get? id)

namespace EventsOnly

theorem refl (d : Data) : EventsOnly d d := ⟨rfl,fun _ => sinks_refl _⟩

theorem trans {d₁ d₂ d₃ : Data} (first : EventsOnly d₁ d₂) (second : EventsOnly d₂ d₃) : EventsOnly d₁ d₃ :=
  ⟨second.rest.trans (by rw [first.rest]),fun id => sinks_trans (first.sinks id) (second.sinks id)⟩

-- Whatever reads none of the fields server events write is the same after them.
theorem frame {α : Type} {d d' : Data} (only : EventsOnly d d') (f : Data → α)
    (reads : ∀ markets pegStatuses clients,
      f {d with markets := markets, pegStatuses := pegStatuses, clients := clients} = f d) : f d' = f d := by
  rw [only.rest]; exact reads _ _ _

end EventsOnly

theorem eventsOnly_markets (d : Data) (markets : List MarketInfo) : EventsOnly d {d with markets := markets} :=
  ⟨rfl,fun _ => sinks_refl _⟩

theorem sinks_append (clients : BTreeMap ClientId ClientData) (status : PegStatus) (id : ClientId) :
    Option.Rel Extends (clients.get? id) ((clients.mapValues fun c => ⟨c.notifs ++ [.pegStatus status]⟩).get? id) := by
  rw [BTreeMap.get?_mapValues]
  cases clients.get? id
  · exact .none
  · exact .some ⟨_,rfl,fun _ member => ⟨status,List.mem_singleton.mp member⟩⟩

theorem processPegStatus_eventsOnly (d : Data) (status : PegStatus) : EventsOnly d (processPegStatus d status) := by
  unfold processPegStatus
  split
  · exact ⟨rfl,sinks_append d.clients _⟩
  · exact ⟨rfl,fun _ => sinks_refl _⟩

theorem processWsEvent_eventsOnly (w : World) (event : WrappedResponse) :
    EventsOnly w.data (processWsEvent w event).data := by
  rcases event with _ | _ | ⟨_,_ | (resp | status | _)⟩ | (status | notif | _)
  case connected => exact (processWsConnected_data w).symm ▸ .refl _
  case response.ok.market => cases resp <;> exact eventsOnly_markets _ _
  case notification.market => cases notif <;> exact eventsOnly_markets _ _
  case response.ok.pegStatus | notification.pegStatus => exact processPegStatus_eventsOnly _ _
  all_goals exact .refl _

-- The quote wait hands its events to `process_ws_event` and writes nothing else.
theorem waitQuote_eventsOnly (w : World) (quoteSubId : QuoteSubId) (events : List WrappedResponse) :
    EventsOnly w.data (waitQuote w quoteSubId events).1.data ∧ (waitQuote w quoteSubId events).1.db = w.db := by
  induction events generalizing w with
  | nil => exact ⟨.refl _,rfl⟩
  | cons event rest ih =>
    simp only [waitQuote]
    split
    · exact ⟨processWsEvent_eventsOnly w event,processWsEvent_db w event⟩
    · obtain ⟨only,db⟩ := ih (processWsEvent w event)
      exact ⟨(processWsEvent_eventsOnly w event).trans only,db.trans (processWsEvent_db w event)⟩

-- A wallet event writes the UTXO set, the balances and the client sinks, nothing else.
theorem processWalletEvent_rest (lib : Lib) (d : Data) (event : WalletEvent) :
    processWalletEvent lib d event = {d with
      utxoData := (processWalletEvent lib d event).utxoData
      lastBalances := (processWalletEvent lib d event).lastBalances
      clients := (processWalletEvent lib d event).clients} := by
  cases event; simp only [processWalletEvent]; split <;> rfl

theorem utxoCheck_failed {tx : Transaction} {utxoData : Option UtxoData} {err : Error}
    (failed : utxoCheck tx utxoData = .error err) : ∃ text, err = .utxoCheckFailed text := by
  cases utxoData with
  | none => cases failed; exact ⟨_,rfl⟩
  | some u =>
    simp only [utxoCheck] at failed
    split at failed <;> cases failed
    exact ⟨_,rfl⟩

theorem waitQuote_result {w w' : World} {quoteSubId : QuoteSubId} {events : List WrappedResponse}
    {status : QuoteStatus} (waited : waitQuote w quoteSubId events = (w',status)) :
    w'.db = w.db ∧ EventsOnly w.data w'.data := by
  have only := waitQuote_eventsOnly w quoteSubId events
  rw [waited] at only
  exact ⟨only.2,only.1⟩

section Handlers

variable (lib : Lib) (w : World)

-- A wallet request changes neither the state nor persistence.
theorem request_quiet {α : Type} (cmd : WalletCommand) (reply : WalletReply α) : Quiet w (w.request cmd reply).1 := by
  cases reply <;> exact ⟨rfl,rfl⟩

-- Everything each handler can do to the state and to persistence: fail with both as they
-- were, or make the one write of its success path.
theorem newAddress_cases (userNote : Option String) (ans : NewAddressAnswers) :
    (Quiet w (newAddress w userNote ans).1 ∧ ∃ err, (newAddress w userNote ans).2 = .error err) ∨
    ∃ first newAddr, ans.firstUnused = .reply (.ok first) ∧ ans.newAddress = .reply (.ok newAddr) ∧
      max first.index (firstUnusedDb w.data.addresses) - first.index < GAP_LIMIT ∧
      let index := max first.index (firstUnusedDb w.data.addresses)
      let addr : Address := ⟨index.toNat,newAddr.address,userNote⟩
      (newAddress w userNote ans).1.data = {w.data with addresses := w.data.addresses.insert index addr} ∧
      (newAddress w userNote ans).1.db = w.db.addAddress addr ∧
      (newAddress w userNote ans).2 = .ok ⟨index,newAddr.address⟩ := by
  obtain ⟨_ | _ | (_ | first),second⟩ := ans
  iterate 3 exact .inl ⟨⟨rfl,rfl⟩,_,rfl⟩
  simp only [newAddress, getNewAddress, World.request, WalletReply.result]
  split
  · rcases second with _ | _ | (_ | newAddr)
    iterate 3 exact .inl ⟨⟨rfl,rfl⟩,_,rfl⟩
    exact .inr ⟨first,newAddr,rfl,rfl,‹_›,rfl,rfl,rfl⟩
  · exact .inl ⟨⟨rfl,rfl⟩,_,rfl⟩

theorem createTx_cases (recipients : List ApiRecipient) (reply : WalletReply Transaction) :
    (Quiet w (createTx lib w recipients reply).1 ∧ ∃ err, (createTx lib w recipients reply).2 = .error err) ∨
    ∃ tx, reply = .reply (.ok tx) ∧
      (createTx lib w recipients reply).1.data =
        {w.data with createdTxs := w.data.createdTxs.insert (lib.txid tx) ⟨tx,createTxNote lib recipients⟩} ∧
      (createTx lib w recipients reply).1.db = w.db ∧
      (createTx lib w recipients reply).2 = .ok ⟨lib.txid tx,lib.feeIn tx lib.policyAsset⟩ := by
  simp only [createTx]
  split
  · exact .inl ⟨⟨rfl,rfl⟩,_,rfl⟩
  · rcases reply with _ | _ | (_ | tx)
    all_goals first | exact .inl ⟨⟨rfl,rfl⟩,_,rfl⟩ | exact .inr ⟨tx,rfl,rfl,rfl,rfl⟩

theorem sendTx_cases {req : SendTxReq} {ans : SendTxAnswers} {w' : World} {r : Except Error SendTxResp}
    (ran : sendTx lib w req ans = some (w',r)) :
    (Quiet w w' ∧ (r = .error .noCreatedTx ∨ ∃ text, r = .error (.utxoCheckFailed text))) ∨
    ∃ created, w.data.createdTxs.get? req.txid = some created ∧
      let m : MonitoredTx := ⟨req.txid,some created.note,req.userNote⟩
      w'.db = w.db.addMonitoredTx m ∧
      (w'.data = {w.data with monitoredTxs := w.data.monitoredTxs.insert m.txid m} ∧
          r = .error (.channel "sending on a closed channel") ∨
        w'.data = {w.data with monitoredTxs := w.data.monitoredTxs.insert m.txid m, createdTxs := ∅} ∧
          ∃ resp, r = .ok resp) := by
  unfold sendTx at ran
  split at ran
  · cases ran; exact .inl ⟨⟨rfl,rfl⟩,.inl rfl⟩
  rename_i created found
  split at ran
  · cases ran; obtain ⟨text,rfl⟩ := utxoCheck_failed ‹_›; exact .inl ⟨⟨rfl,rfl⟩,.inr ⟨_,rfl⟩⟩
  split at ran
  · cases ran; exact .inl ⟨⟨rfl,rfl⟩,.inr ⟨_,rfl⟩⟩
  split at ran
  · cases ran; exact .inr ⟨created,found,rfl,.inl ⟨rfl,rfl⟩⟩
  · cases ran
  · cases ran; exact .inr ⟨created,found,rfl,.inr ⟨rfl,_,rfl⟩⟩

theorem acceptQuote_cases {req : AcceptQuoteReq} {ans : AcceptQuoteAnswers} {w' : World} {r : Except Error Txid}
    (ran : acceptQuote lib w req ans = some (w',r)) :
    (Quiet w w' ∧ (r = .error .noQuote ∨ r = .error .quoteExpired)) ∨
    ∃ quote, w.data.quotes.get? req.quoteId = some quote ∧ quote.ttlValid ans.now ∧
      let m : MonitoredTx := ⟨quote.txid,some quote.note,req.userNote⟩
      w'.db = w.db.addMonitoredTx m ∧ w'.data = {w.data with monitoredTxs := w.data.monitoredTxs.insert m.txid m} ∧
      ((∃ err, r = .error (.wsError err)) ∨ r = .ok quote.txid) := by
  unfold acceptQuote at ran
  split at ran
  · cases ran; exact .inl ⟨⟨rfl,rfl⟩,.inl rfl⟩
  rename_i quote found
  split at ran
  · rename_i valid
    split at ran
    · cases ran; exact .inr ⟨quote,found,valid,rfl,rfl,.inl ⟨_,rfl⟩⟩
    · split at ran
      · cases ran; exact .inr ⟨quote,found,valid,rfl,rfl,.inr (congrArg _ ‹_›).symm⟩
      · cases ran
  · cases ran; exact .inl ⟨⟨rfl,rfl⟩,.inr rfl⟩

theorem finishQuote_cases (req : GetQuoteReq) (ans : GetQuoteAnswers) (send recv : Asset) (baseTradeDir : TradeDir)
    (feeAsset : AssetType) (sendAmount : UInt64) (status : MktQuoteStatus) :
    (finishQuote lib w req ans send recv baseTradeDir feeAsset sendAmount status).1.db = w.db ∧
    (((finishQuote lib w req ans send recv baseTradeDir feeAsset sendAmount status).1.data = w.data ∧
        ∃ err, (finishQuote lib w req ans send recv baseTradeDir feeAsset sendAmount status).2 = .error err) ∨
      ∃ quoteId quote resp,
        (finishQuote lib w req ans send recv baseTradeDir feeAsset sendAmount status).1.data =
          {w.data with quotes := w.data.quotes.insert quoteId quote} ∧
        (finishQuote lib w req ans send recv baseTradeDir feeAsset sendAmount status).2 = .ok resp) := by
  cases status with
  | success =>
    unfold finishQuote; dsimp only
    repeat' split
    all_goals first | exact ⟨rfl,.inl ⟨rfl,_,rfl⟩⟩ | exact ⟨rfl,.inr ⟨_,_,_,rfl,rfl⟩⟩
  | lowBalance | error => exact ⟨rfl,.inl ⟨rfl,_,rfl⟩⟩

theorem getQuote_cases (req : GetQuoteReq) (ans : GetQuoteAnswers) :
    (getQuote lib w req ans).1.db = w.db ∧ ∃ d, EventsOnly w.data d ∧
      (((getQuote lib w req ans).1.data = d ∧ ∃ err, (getQuote lib w req ans).2 = .error err) ∨
        ∃ quoteId quote resp, (getQuote lib w req ans).1.data = {d with quotes := d.quotes.insert quoteId quote} ∧
          (getQuote lib w req ans).2 = .ok resp) := by
  obtain ⟨data,db⟩ := request_quiet w (.newAddress true none) ans.changeAddress
  generalize result : getQuote lib w req ans = p
  unfold getQuote getNewAddress at result
  generalize w.request (.newAddress true none) ans.changeAddress = asked at data db result
  obtain ⟨w₁,_ | _⟩ := asked
  all_goals dsimp only at result; repeat' split at result
  all_goals subst result; first
    | exact ⟨rfl,_,.refl _,.inl ⟨rfl,_,rfl⟩⟩
    | exact ⟨db,w₁.data,data ▸ .refl _,.inl ⟨rfl,_,rfl⟩⟩
    | obtain ⟨waited,only⟩ := waitQuote_result ‹waitQuote _ _ _ = _›
      have only : EventsOnly w.data _ := data ▸ only
      first
        | exact ⟨waited.trans db,_,only,.inl ⟨rfl,_,rfl⟩⟩
        | exact ⟨(finishQuote_cases ..).1.trans (waited.trans db),_,only,(finishQuote_cases ..).2⟩

theorem newPeg_cases (req : NewPegReq) (ans : NewPegAnswers) :
    (Quiet w (newPeg w req ans).1 ∧ ∃ err, (newPeg w req ans).2 = .error err) ∨
    ∃ resp status, ans.peg = .ok resp ∧ ans.pegStatus = .ok status ∧
      (newPeg w req ans).1.data = {processPegStatus w.data status with pegs := w.data.pegs.insert resp.orderId ()} ∧
      (newPeg w req ans).1.db = w.db.addPeg resp.orderId ∧
      (newPeg w req ans).2 = .ok (resp.orderId,resp.pegAddr) := by
  rcases ans with ⟨_ | resp,_ | status⟩
  all_goals first | exact .inl ⟨⟨rfl,rfl⟩,_,rfl⟩ | refine .inr ⟨resp,status,rfl,rfl,?_,rfl,rfl⟩
  simp only [newPeg, World.modify_data, World.issue_data, processPegStatus_pegs]

theorem getMonitoredTxs_quiet (reply : WalletReply (List WalletTx)) : Quiet w (getMonitoredTxs w reply).1 := by
  rcases reply with _ | _ | (_ | _) <;> exact ⟨rfl,rfl⟩

-- Everything a command handler can do, on top of the server events it drains: nothing, or one
-- write of its own tables, made in memory and in persistence alike.
theorem handler_cases {w' : World} {cmd : Command} (ran : processCommand lib w cmd = some w')
    (handler : ∀ id, cmd ≠ .clientConnected id ∧ cmd ≠ .clientDisconnected id) :
    ∃ d, EventsOnly w.data d ∧
      ((w'.data = d ∧ w'.db = w.db) ∨
        (∃ index addr, addr.ind = index.toNat ∧
          w'.data = {d with addresses := d.addresses.insert index addr} ∧ w'.db = w.db.addAddress addr) ∨
        (∃ tx note, w'.data = {d with createdTxs := d.createdTxs.insert (lib.txid tx) ⟨tx,note⟩} ∧ w'.db = w.db) ∨
        (∃ (m : MonitoredTx) (cleared : Bool), w'.data = {d with
            monitoredTxs := d.monitoredTxs.insert m.txid m
            createdTxs := if cleared then ∅ else d.createdTxs} ∧ w'.db = w.db.addMonitoredTx m) ∨
        (∃ quoteId quote, w'.data = {d with quotes := d.quotes.insert quoteId quote} ∧ w'.db = w.db) ∨
        (∃ orderId, w'.data = {d with pegs := d.pegs.insert orderId ()} ∧ w'.db = w.db.addPeg orderId) ∨
        (∃ orderId, w'.data = d ∧ w'.db = w.db.deletePeg orderId)) := by
  cases cmd with
  | newAddress userNote ans =>
    cases ran
    rcases newAddress_cases w userNote ans with ⟨⟨data,db⟩,_⟩ | ⟨_,_,_,_,_,data,db,_⟩
    · exact ⟨_,.refl _,.inl ⟨data,db⟩⟩
    · exact ⟨_,.refl _,.inr (.inl ⟨_,_,rfl,data,db⟩)⟩
  | createTx recipients reply =>
    cases ran
    rcases createTx_cases lib w recipients reply with ⟨⟨data,db⟩,_⟩ | ⟨tx,_,data,db,_⟩
    · exact ⟨_,.refl _,.inl ⟨data,db⟩⟩
    · exact ⟨_,.refl _,.inr (.inr (.inl ⟨tx,_,data,db⟩))⟩
  | sendTx req ans =>
    obtain ⟨⟨_,_⟩,sent,rfl⟩ := Option.map_eq_some'.mp ran
    rcases sendTx_cases lib w sent with ⟨⟨data,db⟩,_⟩ | ⟨_,_,db,⟨data,_⟩ | ⟨data,_⟩⟩
    · exact ⟨_,.refl _,.inl ⟨data,db⟩⟩
    · exact ⟨_,.refl _,.inr (.inr (.inr (.inl ⟨_,false,data,db⟩)))⟩
    · exact ⟨_,.refl _,.inr (.inr (.inr (.inl ⟨_,true,data,db⟩)))⟩
  | getQuote req ans =>
    cases ran
    obtain ⟨db,d,only,⟨data,_⟩ | ⟨_,_,_,data,_⟩⟩ := getQuote_cases lib w req ans
    · exact ⟨d,only,.inl ⟨data,db⟩⟩
    · exact ⟨d,only,.inr (.inr (.inr (.inr (.inl ⟨_,_,data,db⟩))))⟩
  | acceptQuote req ans =>
    obtain ⟨⟨_,_⟩,accepted,rfl⟩ := Option.map_eq_some'.mp ran
    rcases acceptQuote_cases lib w accepted with ⟨⟨data,db⟩,_⟩ | ⟨_,_,_,db,data,_⟩
    · exact ⟨_,.refl _,.inl ⟨data,db⟩⟩
    · exact ⟨_,.refl _,.inr (.inr (.inr (.inl ⟨_,false,data,db⟩)))⟩
  | newPeg req ans =>
    cases ran
    rcases newPeg_cases w req ans with ⟨⟨data,db⟩,_⟩ | ⟨resp,status,_,_,data,db,_⟩
    · exact ⟨_,.refl _,.inl ⟨data,db⟩⟩
    · refine ⟨_,processPegStatus_eventsOnly w.data status,.inr (.inr (.inr (.inr (.inr (.inl ⟨resp.orderId,?_,db⟩)))))⟩
      rw [respond_data, data, processPegStatus_pegs]
  | delPeg orderId => cases ran; exact ⟨_,.refl _,.inr (.inr (.inr (.inr (.inr (.inr ⟨orderId,rfl,rfl⟩)))))⟩
  | getMonitoredTxs reply => cases ran; exact ⟨_,.refl _,.inl (getMonitoredTxs_quiet w reply)⟩
  | clientConnected id => exact absurd rfl (handler id).1
  | clientDisconnected id => exact absurd rfl (handler id).2

end Handlers

-- The replies sent on the commands' `res_sender`s so far, oldest first.
def replies (w : World) : List Reply := w.sent.filterMap fun s =>
  match s.msg with
  | .reply r => some r
  | _ => none

section Replies

variable {w : World}

@[simp] theorem replies_server (req : ServerRequest) : replies (w.issue (.server req)) = replies w := by
  simp [replies]

@[simp] theorem replies_wallet (cmd : WalletCommand) : replies (w.issue (.wallet cmd)) = replies w := by
  simp [replies]

@[simp] theorem replies_reply (r : Reply) : replies (w.issue (.reply r)) = replies w ++ [r] := by
  simp [replies]

@[simp] theorem replies_modify (f : Data → Data) : replies (w.modify f) = replies w := rfl

@[simp] theorem replies_setDb (db : Db) : replies {w with db := db} = replies w := rfl

@[simp] theorem replies_newMonitoredTx (m : MonitoredTx) : replies (newMonitoredTx w m) = replies w := rfl

theorem replies_pegStatuses (orders : List OrderId) :
    replies (orders.foldl (fun w o => w.issue (.server (.pegStatus o))) w) = replies w := by
  induction orders generalizing w with
  | nil => rfl
  | cons o rest ih => exact ih.trans (replies_server _)

theorem replies_processWsEvent (event : WrappedResponse) : replies (processWsEvent w event) = replies w := by
  rcases event with _ | _ | ⟨_,_ | (_ | _ | _)⟩ | (_ | _ | _)
  case connected => exact (replies_pegStatuses _).trans (replies_server _)
  all_goals rfl

theorem replies_of_waitQuote {w' : World} {quoteSubId : QuoteSubId} {events : List WrappedResponse}
    {status : QuoteStatus} (waited : waitQuote w quoteSubId events = (w',status)) : replies w' = replies w := by
  induction events generalizing w with
  | nil => cases waited; rfl
  | cons event rest ih =>
    simp only [waitQuote] at waited
    split at waited
    · cases waited; exact replies_processWsEvent event
    · exact (ih waited).trans (replies_processWsEvent event)

-- The handlers talk to the server and the wallet only: the reply is `process_command`'s.
theorem newAddress_replies (userNote : Option String) (ans : NewAddressAnswers) :
    replies (newAddress w userNote ans).1 = replies w := by
  obtain ⟨_ | _ | (_ | first),second⟩ := ans
  · rfl
  iterate 2 exact replies_wallet _
  simp only [newAddress, getNewAddress, World.request, WalletReply.result]
  split
  · rcases second with _ | _ | (_ | newAddr) <;> simp only [replies_wallet, replies_modify, replies_setDb]
  · exact replies_wallet _

theorem createTx_replies (lib : Lib) (recipients : List ApiRecipient) (reply : WalletReply Transaction) :
    replies (createTx lib w recipients reply).1 = replies w := by
  simp only [createTx]
  split
  · rfl
  · rcases reply with _ | _ | (_ | tx) <;> simp only [World.request, WalletReply.result, replies_wallet, replies_modify]

theorem sendTx_replies (lib : Lib) {req : SendTxReq} {ans : SendTxAnswers} {w' : World} {r : Except Error SendTxResp}
    (ran : sendTx lib w req ans = some (w',r)) : replies w' = replies w := by
  unfold sendTx at ran
  repeat' split at ran
  all_goals cases ran <;> simp only [replies_server, replies_wallet, replies_modify, replies_newMonitoredTx]

theorem acceptQuote_replies (lib : Lib) {req : AcceptQuoteReq} {ans : AcceptQuoteAnswers} {w' : World}
    {r : Except Error Txid} (ran : acceptQuote lib w req ans = some (w',r)) : replies w' = replies w := by
  unfold acceptQuote at ran
  repeat' split at ran
  all_goals cases ran <;> simp only [replies_server, replies_newMonitoredTx]

theorem finishQuote_replies (lib : Lib) (req : GetQuoteReq) (ans : GetQuoteAnswers) (send recv : Asset)
    (baseTradeDir : TradeDir) (feeAsset : AssetType) (sendAmount : UInt64) (status : MktQuoteStatus) :
    replies (finishQuote lib w req ans send recv baseTradeDir feeAsset sendAmount status).1 = replies w := by
  cases status with
  | success =>
    unfold finishQuote; dsimp only
    repeat' split
    all_goals simp only [replies_server, replies_modify]
  | lowBalance | error => rfl

theorem replies_request {α : Type} (cmd : WalletCommand) (reply : WalletReply α) :
    replies (w.request cmd reply).1 = replies w := by
  cases reply <;> simp only [World.request, replies_wallet]

theorem getQuote_replies (lib : Lib) (req : GetQuoteReq) (ans : GetQuoteAnswers) :
    replies (getQuote lib w req ans).1 = replies w := by
  have asked : replies (w.request (.newAddress true none) ans.changeAddress).1 = replies w := replies_request _ _
  generalize result : getQuote lib w req ans = p
  unfold getQuote getNewAddress at result
  generalize w.request (.newAddress true none) ans.changeAddress = r at asked result
  obtain ⟨w₁,_ | _⟩ := r
  all_goals dsimp only at result; repeat' split at result
  all_goals subst result; first
    | rfl
    | exact asked
    | exact (replies_server _).trans asked
    | exact (replies_of_waitQuote ‹_›).trans ((replies_server _).trans asked)
    | exact ((finishQuote_replies ..).trans (replies_of_waitQuote ‹_›)).trans ((replies_server _).trans asked)

theorem newPeg_replies (req : NewPegReq) (ans : NewPegAnswers) : replies (newPeg w req ans).1 = replies w := by
  rcases ans with ⟨_ | resp,_ | status⟩ <;> simp only [newPeg, replies_server, replies_modify, replies_setDb]

theorem getMonitoredTxs_replies (reply : WalletReply (List WalletTx)) :
    replies (getMonitoredTxs w reply).1 = replies w := by
  rcases reply with _ | _ | (_ | txs) <;> simp only [getMonitoredTxs, World.request, WalletReply.result, replies_wallet]

end Replies

end SideswapManager
