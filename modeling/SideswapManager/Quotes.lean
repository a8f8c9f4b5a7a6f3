import SideswapManager.Replies

namespace SideswapManager.Quotes

-- Every quote in memory was returned, under its id and txid, by an Ok GetQuote reply already sent.
def Offered (w : World) : Prop :=
  ∀ k q, w.data.quotes.get? k = some q →
    ∃ resp, Reply.getQuote (.ok resp) ∈ replies w ∧ resp.quoteId = k ∧ resp.txid = q.txid

theorem finishQuote_offers (lib : Lib) (w : World) (req : GetQuoteReq) (ans : GetQuoteAnswers) (send recv : Asset)
    (baseTradeDir : TradeDir) (feeAsset : AssetType) (sendAmount : UInt64) (status : MktQuoteStatus)
    {k : QuoteId} {q : Quote}
    (found : (finishQuote lib w req ans send recv baseTradeDir feeAsset sendAmount status).1.data.quotes.get? k = some q) :
    w.data.quotes.get? k = some q ∨
      ∃ resp, (finishQuote lib w req ans send recv baseTradeDir feeAsset sendAmount status).2 = .ok resp ∧
        resp.quoteId = k ∧ resp.txid = q.txid := by
  generalize result : finishQuote lib w req ans send recv baseTradeDir feeAsset sendAmount status = p at found ⊢
  unfold finishQuote at result
  cases status <;> dsimp only at result
  repeat' split at result
  all_goals subst result
  all_goals first
    | exact .inl found
    | simp only [World.modify_data, BTreeMap.get?_insert] at found
      split at found
      · rename_i same
        cases found; exact .inr ⟨_,rfl,same.symm,rfl⟩
      · exact .inl found

-- GetQuote's only write to `quotes` is finishQuote's.
theorem getQuote_offers (lib : Lib) (w : World) (req : GetQuoteReq) (ans : GetQuoteAnswers) {k : QuoteId} {q : Quote}
    (found : (getQuote lib w req ans).1.data.quotes.get? k = some q) :
    w.data.quotes.get? k = some q ∨
      ∃ resp, (getQuote lib w req ans).2 = .ok resp ∧ resp.quoteId = k ∧ resp.txid = q.txid := by
  obtain ⟨data,_⟩ := request_quiet w (.newAddress true none) ans.changeAddress
  generalize result : getQuote lib w req ans = p at found ⊢
  unfold getQuote getNewAddress at result
  generalize w.request (.newAddress true none) ans.changeAddress = asked at data result
  obtain ⟨w₁,_ | _⟩ := asked
  all_goals dsimp only at data result; repeat' split at result
  all_goals subst result; first
    | exact .inl found
    | exact .inl (by rw [← data]; exact found)
    | obtain ⟨_,only⟩ := waitQuote_result ‹waitQuote _ _ _ = _›
      have same := (only.frame Data.quotes fun _ _ _ => rfl).trans (congrArg Data.quotes data)
      first
        | exact .inl (by rw [← same]; exact found)
        | exact (finishQuote_offers lib _ req ans _ _ _ _ _ _ found).imp_left fun old => by rw [← same]; exact old

theorem Offered.keep {w w' : World} (offered : Offered w) (quotes : w'.data.quotes = w.data.quotes)
    (grown : ∃ rs, replies w' = replies w ++ rs) : Offered w' := by
  intro k q found
  rw [quotes] at found
  obtain ⟨resp,member,named⟩ := offered k q found
  obtain ⟨rs,grown⟩ := grown
  exact ⟨resp,grown ▸ List.mem_append_left rs member,named⟩

-- Only GetQuote writes `quotes`, and its reply, sent right after, returns the quote it stored.
theorem offered_branch (lib : Lib) {w w' : World} {input : Input} (offered : Offered w)
    (ran : branch lib w input = some w') : Offered w' := by
  obtain ⟨rs,grown,_⟩ := Replies.replies_branch lib ran
  have keep (quotes : w'.data.quotes = w.data.quotes) : Offered w' := offered.keep quotes ⟨rs,grown⟩
  cases input with
  | wallet event => cases ran; exact keep (congrArg Data.quotes (processWalletEvent_rest lib w.data event) :)
  | ws event => cases ran; exact keep ((processWsEvent_eventsOnly w event).frame Data.quotes fun _ _ _ => rfl)
  | command cmd =>
    cases cmd with
    | getQuote req ans =>
      cases ran
      intro k q found
      rcases getQuote_offers lib w req ans found with old | ⟨resp,ok,named⟩
      · obtain ⟨resp,member,named⟩ := offered k q old
        exact ⟨resp,grown ▸ List.mem_append_left rs member,named⟩
      · refine ⟨resp,?_,named⟩
        rw [Replies.replies_respond, getQuote_replies, ok]
        exact List.mem_append_right _ (List.mem_singleton_self _)
    | newAddress userNote ans =>
      cases ran
      rcases newAddress_cases w userNote ans with ⟨⟨data,_⟩,_⟩ | ⟨_,_,_,_,_,data,_,_⟩ <;>
        exact keep (by rw [respond_data, data])
    | createTx recipients reply =>
      cases ran
      rcases createTx_cases lib w recipients reply with ⟨⟨data,_⟩,_⟩ | ⟨_,_,data,_,_⟩ <;>
        exact keep (by rw [respond_data, data])
    | sendTx req ans =>
      obtain ⟨⟨_,_⟩,sent,rfl⟩ := Option.map_eq_some'.mp ran
      rcases sendTx_cases lib w sent with ⟨⟨data,_⟩,_⟩ | ⟨_,_,_,⟨data,_⟩ | ⟨data,_⟩⟩ <;>
        exact keep (by rw [respond_data, data])
    | acceptQuote req ans =>
      obtain ⟨⟨_,_⟩,accepted,rfl⟩ := Option.map_eq_some'.mp ran
      rcases acceptQuote_cases lib w accepted with ⟨⟨data,_⟩,_⟩ | ⟨_,_,_,_,data,_⟩ <;>
        exact keep (by rw [respond_data, data])
    | newPeg req ans =>
      cases ran
      rcases newPeg_cases w req ans with ⟨⟨data,_⟩,_⟩ | ⟨_,status,_,_,data,_,_⟩
      · exact keep (by rw [respond_data, data])
      · exact keep (by rw [respond_data, data]; exact (processPegStatus_eventsOnly w.data status).frame Data.quotes fun _ _ _ => rfl)
    | delPeg => cases ran; exact keep rfl
    | getMonitoredTxs reply => cases ran; exact keep (congrArg Data.quotes (getMonitoredTxs_quiet w reply).1)
    | clientConnected => cases ran; exact keep rfl
    | clientDisconnected =>
      simp only [branch, processCommand] at ran
      split at ran
      · cases ran; exact keep rfl
      · cases ran

theorem offered_step (lib : Lib) {w w' : World} {input : Input} {now : Instant} (offered : Offered w)
    (ran : step lib w input now = some w') : Offered w' := by
  obtain ⟨next,found,rfl⟩ := step_eq_some ran
  intro k q kept
  simp only [sweepQuotes, World.modify_data, BTreeMap.get?_retain, Option.filter_eq_some] at kept
  exact offered_branch lib offered found k q kept.1

-- Through any run, an Ok AcceptQuote returns the txid a GetQuote reply announced under its id.
theorem accepted_quotes_were_offered (lib : Lib) (db : Db) {w : World} (reached : Reached lib (fun _ => True) db w) :
    (∀ k q, w.data.quotes.get? k = some q →
      ∃ resp, Reply.getQuote (.ok resp) ∈ replies w ∧ resp.quoteId = k ∧ resp.txid = q.txid) ∧
    ∀ req ans w' txid, acceptQuote lib w req ans = some (w',.ok txid) →
      ∃ resp, Reply.getQuote (.ok resp) ∈ replies w ∧ resp.quoteId = req.quoteId ∧ resp.txid = txid := by
  have offered : Offered w := by
    induction reached with
    | start => exact fun _ _ found => (nomatch found)
    | cycle _ _ ran ih => exact offered_step lib ih ran
  refine ⟨offered,fun req ans w' txid accepted => ?_⟩
  rcases acceptQuote_cases lib w accepted with ⟨_,early | early⟩ | ⟨quote,found,_,_,_,⟨_,failed⟩ | ok⟩
  · cases early
  · cases early
  · cases failed
  · cases ok
    exact offered _ _ found

theorem accepted_quotes_were_offered_after_refusals :
    ∃ w, run Lib.constant (World.start Db.empty) [(.wallet (.utxos ⟨[⟨1,0,5,100⟩]⟩),0),
        (.command (.getQuote ⟨5,1,6,"addr"⟩ ⟨.reply (.ok ⟨4,"change"⟩),.ok 2,[],.error .timeout,0⟩),0),
        (.command (.acceptQuote ⟨3,none⟩ ⟨0,.ok 0⟩),0)] = some w ∧
      replies w = [.getQuote (.error .noMarket),.acceptQuote (.error .noQuote)] ∧
      Reached Lib.constant (fun _ => True) Db.empty w ∧
      (∀ k q, w.data.quotes.get? k = some q →
        ∃ resp, Reply.getQuote (.ok resp) ∈ replies w ∧ resp.quoteId = k ∧ resp.txid = q.txid) ∧
      ∀ req ans w' txid, acceptQuote Lib.constant w req ans = some (w',.ok txid) →
        ∃ resp, Reply.getQuote (.ok resp) ∈ replies w ∧ resp.quoteId = req.quoteId ∧ resp.txid = txid :=
  have ran : run Lib.constant (World.start Db.empty) [(.wallet (.utxos ⟨[⟨1,0,5,100⟩]⟩),0),
      (.command (.getQuote ⟨5,1,6,"addr"⟩ ⟨.reply (.ok ⟨4,"change"⟩),.ok 2,[],.error .timeout,0⟩),0),
      (.command (.acceptQuote ⟨3,none⟩ ⟨0,.ok 0⟩),0)] = some _ := rfl
  have reached := Reached.of_run .start (fun _ _ => trivial) ran
  ⟨_,ran,rfl,reached,accepted_quotes_were_offered Lib.constant Db.empty reached⟩

end SideswapManager.Quotes
