import SideswapManager.Effects

namespace SideswapManager.Drafts

-- The wallet commands that make and spend drafts.
def drafting : Outgoing → Option WalletCommand
  | .wallet (.createTx recipients) => some (.createTx recipients)
  | .wallet (.broadcastTx tx) => some (.broadcastTx tx)
  | _ => none

-- The CreateTx and BroadcastTx commands sent to the wallet so far, oldest first.
def walletDrafts (w : World) : List WalletCommand := w.sent.filterMap fun s => drafting s.msg

section Log

variable {w : World}

@[simp] theorem walletDrafts_issue (msg : Outgoing) :
    walletDrafts (w.issue msg) = walletDrafts w ++ (drafting msg).toList := by
  simp only [walletDrafts, World.issue_sent, List.filterMap_append, List.filterMap_cons, List.filterMap_nil]
  cases drafting msg <;> rfl

@[simp] theorem walletDrafts_server (req : ServerRequest) : walletDrafts (w.issue (.server req)) = walletDrafts w := by
  simp [drafting]

@[simp] theorem walletDrafts_reply (r : Reply) : walletDrafts (w.issue (.reply r)) = walletDrafts w := by
  simp [drafting]

@[simp] theorem walletDrafts_modify (f : Data → Data) : walletDrafts (w.modify f) = walletDrafts w := rfl

@[simp] theorem walletDrafts_setDb (db : Db) : walletDrafts {w with db := db} = walletDrafts w := rfl

@[simp] theorem walletDrafts_newMonitoredTx (m : MonitoredTx) : walletDrafts (newMonitoredTx w m) = walletDrafts w := rfl

theorem walletDrafts_request {α : Type} {cmd : WalletCommand} (calm : drafting (.wallet cmd) = none)
    (reply : WalletReply α) : walletDrafts (w.request cmd reply).1 = walletDrafts w := by
  cases reply <;> simp [World.request, calm]

theorem walletDrafts_pegStatuses (orders : List OrderId) :
    walletDrafts (orders.foldl (fun w o => w.issue (.server (.pegStatus o))) w) = walletDrafts w := by
  induction orders generalizing w with
  | nil => rfl
  | cons o rest ih => exact ih.trans (walletDrafts_server _)

theorem walletDrafts_processWsEvent (event : WrappedResponse) : walletDrafts (processWsEvent w event) = walletDrafts w := by
  rcases event with _ | _ | ⟨_,_ | (_ | _ | _)⟩ | (_ | _ | _)
  case connected => exact (walletDrafts_pegStatuses _).trans (walletDrafts_server _)
  all_goals rfl

theorem walletDrafts_of_waitQuote {w' : World} {quoteSubId : QuoteSubId} {events : List WrappedResponse}
    {status : QuoteStatus} (waited : waitQuote w quoteSubId events = (w',status)) : walletDrafts w' = walletDrafts w := by
  induction events generalizing w with
  | nil => cases waited; rfl
  | cons event rest ih =>
    simp only [waitQuote] at waited
    split at waited
    · cases waited; exact walletDrafts_processWsEvent event
    · exact (ih waited).trans (walletDrafts_processWsEvent event)

-- Apart from CreateTx and SendTx, the handlers ask the wallet for addresses and transactions
-- only.
theorem walletDrafts_newAddress (userNote : Option String) (ans : NewAddressAnswers) :
    walletDrafts (newAddress w userNote ans).1 = walletDrafts w := by
  obtain ⟨_ | _ | (_ | first),second⟩ := ans
  · rfl
  iterate 2 exact (walletDrafts_issue _).trans (List.append_nil _)
  simp only [newAddress, getNewAddress, World.request, WalletReply.result]
  split
  · rcases second with _ | _ | (_ | newAddr) <;>
      simp only [walletDrafts_issue, walletDrafts_modify, walletDrafts_setDb, drafting, Option.toList_none, List.append_nil]
  · simp [drafting]

theorem walletDrafts_finishQuote (lib : Lib) (req : GetQuoteReq) (ans : GetQuoteAnswers) (send recv : Asset)
    (baseTradeDir : TradeDir) (feeAsset : AssetType) (sendAmount : UInt64) (status : MktQuoteStatus) :
    walletDrafts (finishQuote lib w req ans send recv baseTradeDir feeAsset sendAmount status).1 = walletDrafts w := by
  cases status with
  | success =>
    unfold finishQuote; dsimp only
    repeat' split
    all_goals simp [drafting]
  | lowBalance | error => rfl

theorem walletDrafts_getQuote (lib : Lib) (req : GetQuoteReq) (ans : GetQuoteAnswers) :
    walletDrafts (getQuote lib w req ans).1 = walletDrafts w := by
  have asked : walletDrafts (w.request (.newAddress true none) ans.changeAddress).1 = walletDrafts w :=
    walletDrafts_request (by rfl) _
  generalize result : getQuote lib w req ans = p
  unfold getQuote getNewAddress at result
  generalize w.request (.newAddress true none) ans.changeAddress = r at asked result
  obtain ⟨w₁,_ | _⟩ := r
  all_goals dsimp only at result; repeat' split at result
  all_goals subst result; first
    | rfl
    | exact asked
    | exact (walletDrafts_server _).trans asked
    | exact (walletDrafts_of_waitQuote ‹_›).trans ((walletDrafts_server _).trans asked)
    | exact ((walletDrafts_finishQuote ..).trans (walletDrafts_of_waitQuote ‹_›)).trans ((walletDrafts_server _).trans asked)

theorem walletDrafts_acceptQuote (lib : Lib) {req : AcceptQuoteReq} {ans : AcceptQuoteAnswers} {w' : World}
    {r : Except Error Txid} (ran : acceptQuote lib w req ans = some (w',r)) : walletDrafts w' = walletDrafts w := by
  unfold acceptQuote at ran
  repeat' split at ran
  all_goals cases ran <;> simp [drafting]

theorem walletDrafts_newPeg (req : NewPegReq) (ans : NewPegAnswers) :
    walletDrafts (newPeg w req ans).1 = walletDrafts w := by
  rcases ans with ⟨_ | resp,_ | status⟩ <;> simp only [newPeg, walletDrafts_server, walletDrafts_modify, walletDrafts_setDb]

theorem walletDrafts_getMonitoredTxs (reply : WalletReply (List WalletTx)) :
    walletDrafts (getMonitoredTxs w reply).1 = walletDrafts w := by
  have asked : walletDrafts (w.request (.getTxs w.data.monitoredTxs.keys) reply).1 = walletDrafts w :=
    walletDrafts_request (by rfl) reply
  unfold getMonitoredTxs
  generalize w.request (.getTxs w.data.monitoredTxs.keys) reply = r at asked ⊢
  obtain ⟨w₁,_ | _⟩ := r <;> exact asked

end Log

section Invariant

-- Each BroadcastTx among the drafting commands comes right after a CreateTx.
def Spent (drafts : List WalletCommand) : Prop :=
  ∀ pre tx post, drafts = pre ++ .broadcastTx tx :: post → ∃ recipients, pre.getLast? = some (.createTx recipients)

theorem Spent.append {drafts : List WalletCommand} (spent : Spent drafts) {cmd : WalletCommand}
    (fresh : ∀ tx, cmd = .broadcastTx tx → ∃ recipients, drafts.getLast? = some (.createTx recipients)) :
    Spent (drafts ++ [cmd]) := by
  intro pre tx post split
  rcases List.eq_nil_or_concat post with rfl | ⟨post,last,rfl⟩
  · obtain ⟨rfl,same⟩ := List.append_inj' split rfl
    exact fresh tx (List.cons.inj same).1
  · rw [List.concat_eq_append, ← List.cons_append, ← List.append_assoc] at split
    exact spent pre tx post (List.append_inj' split rfl).1

-- What every reached state keeps: its drafting commands are spent, and while it holds a draft
-- the last of them is a CreateTx.
structure Drafting (w : World) : Prop where
  spent : Spent (walletDrafts w)
  fresh : ∀ txid created, w.data.createdTxs.get? txid = some created →
    ∃ recipients, (walletDrafts w).getLast? = some (.createTx recipients)

variable {w w' : World}

theorem Drafting.keep (held : Drafting w) (drafts : walletDrafts w' = walletDrafts w)
    (created : w'.data.createdTxs = w.data.createdTxs) : Drafting w' where
  spent := drafts ▸ held.spent
  fresh txid c found := drafts ▸ held.fresh txid c (created ▸ found)

-- Right after a CreateTx any drafts may be held.
theorem Drafting.after_create (held : Drafting w) (recipients : List Recipient)
    (drafts : walletDrafts w' = walletDrafts w ++ [.createTx recipients]) : Drafting w' where
  spent := drafts ▸ held.spent.append nofun
  fresh _ _ _ := ⟨recipients,by rw [drafts, List.getLast?_concat]⟩

theorem drafting_createTx (lib : Lib) (held : Drafting w) (recipients : List ApiRecipient)
    (reply : WalletReply Transaction) : Drafting (createTx lib w recipients reply).1 := by
  unfold createTx
  split
  · exact held
  · rename_i converted _
    rcases reply with _ | _ | (_ | tx)
    · exact held
    all_goals exact held.after_create converted (by simp [World.request, WalletReply.result, drafting])

-- SendTx broadcasts a draft it holds, so right after a CreateTx, and then drops every draft.
theorem drafting_sendTx (lib : Lib) (held : Drafting w) {req : SendTxReq} {ans : SendTxAnswers}
    {r : Except Error SendTxResp} (ran : sendTx lib w req ans = some (w',r)) : Drafting w' := by
  unfold sendTx at ran
  split at ran
  · cases ran; exact held
  rename_i created found
  split at ran
  · cases ran; exact held
  split at ran
  · cases ran; exact held.keep (walletDrafts_server _) rfl
  split at ran
  · cases ran; exact held.keep (by simp [drafting]) rfl
  · cases ran
  · cases ran
    obtain ⟨recipients,last⟩ := held.fresh _ _ found
    refine ⟨?_,fun _ _ found => by simp at found⟩
    have spent : Spent (walletDrafts w ++ [.broadcastTx (lib.serializeHex created.tx)]) :=
      held.spent.append fun _ _ => ⟨_,last⟩
    simpa [drafting] using spent

-- Apart from CreateTx and SendTx, a branch sends no drafting command and keeps the drafts.
theorem drafting_branch (lib : Lib) {input : Input} (held : Drafting w) (ran : branch lib w input = some w') :
    Drafting w' := by
  cases input with
  | wallet event =>
    cases ran; exact held.keep rfl (congrArg Data.createdTxs (processWalletEvent_rest lib w.data event) :)
  | ws event =>
    cases ran; exact held.keep (walletDrafts_processWsEvent event) ((processWsEvent_eventsOnly w event).frame Data.createdTxs fun _ _ _ => rfl)
  | command cmd =>
    cases cmd with
    | newAddress userNote ans =>
      cases ran
      refine held.keep ((walletDrafts_reply _).trans (walletDrafts_newAddress userNote ans)) ?_
      rcases newAddress_cases w userNote ans with ⟨⟨data,_⟩,_⟩ | ⟨_,_,_,_,_,data,_⟩ <;> rw [respond_data, data]
    | createTx recipients reply => cases ran; exact (drafting_createTx lib held recipients reply).keep (walletDrafts_reply _) rfl
    | sendTx req ans =>
      obtain ⟨⟨_,_⟩,sent,rfl⟩ := Option.map_eq_some'.mp ran
      exact (drafting_sendTx lib held sent).keep (walletDrafts_reply _) rfl
    | getQuote req ans =>
      cases ran
      refine held.keep ((walletDrafts_reply _).trans (walletDrafts_getQuote lib req ans)) ?_
      obtain ⟨_,d,only,⟨data,_⟩ | ⟨_,_,_,data,_⟩⟩ := getQuote_cases lib w req ans <;>
        rw [respond_data, data] <;> exact only.frame Data.createdTxs fun _ _ _ => rfl
    | acceptQuote req ans =>
      obtain ⟨⟨_,_⟩,accepted,rfl⟩ := Option.map_eq_some'.mp ran
      refine held.keep ((walletDrafts_reply _).trans (walletDrafts_acceptQuote lib accepted)) ?_
      rcases acceptQuote_cases lib w accepted with ⟨⟨data,_⟩,_⟩ | ⟨_,_,_,_,data,_⟩ <;> rw [respond_data, data]
    | newPeg req ans =>
      cases ran
      refine held.keep ((walletDrafts_reply _).trans (walletDrafts_newPeg req ans)) ?_
      rcases newPeg_cases w req ans with ⟨⟨data,_⟩,_⟩ | ⟨_,status,_,_,data,_⟩
      · rw [respond_data, data]
      · rw [respond_data, data]; exact (processPegStatus_eventsOnly w.data status).frame Data.createdTxs fun _ _ _ => rfl
    | delPeg => cases ran; exact held.keep (walletDrafts_reply _) rfl
    | getMonitoredTxs reply =>
      cases ran
      exact held.keep ((walletDrafts_reply _).trans (walletDrafts_getMonitoredTxs reply))
        (congrArg Data.createdTxs (getMonitoredTxs_quiet w reply).1)
    | clientConnected => cases ran; exact held.keep rfl rfl
    | clientDisconnected =>
      simp only [branch, processCommand] at ran
      split at ran
      · cases ran; exact held.keep rfl rfl
      · cases ran

theorem drafting_step (lib : Lib) {input : Input} {now : Instant} (held : Drafting w)
    (ran : step lib w input now = some w') : Drafting w' := by
  obtain ⟨next,found,rfl⟩ := step_eq_some ran
  exact (drafting_branch lib held found).keep rfl rfl

end Invariant

-- From any load, through any run: among the CreateTx and BroadcastTx commands sent to the
-- wallet, each BroadcastTx comes right after a CreateTx, and while any draft is held the last of
-- them is a CreateTx. A draft is broadcast at most once, and none before a CreateTx.
theorem wallet_broadcast_follows_create (lib : Lib) (db : Db) {w : World} (reached : Reached lib (fun _ => True) db w) :
    (∀ pre tx post, walletDrafts w = pre ++ .broadcastTx tx :: post →
      ∃ recipients, pre.getLast? = some (.createTx recipients)) ∧
    ∀ txid created, w.data.createdTxs.get? txid = some created →
      ∃ recipients, (walletDrafts w).getLast? = some (.createTx recipients) := by
  have held : Drafting w := by
    induction reached with
    | start => exact ⟨fun pre _ _ split => (by cases pre <;> cases split),fun _ _ found => (nomatch found)⟩
    | cycle _ _ ran ih => exact drafting_step lib ih ran
  exact ⟨held.spent,held.fresh⟩

theorem wallet_broadcast_follows_create_on_send :
    let inputs : List (Input × Instant) :=
      [(.wallet (.utxos ⟨[]⟩),0),(.command (.createTx [] (.reply (.ok ⟨[],[]⟩))),1),
        (.command (.sendTx ⟨0,none⟩ ⟨.ok (),.ok 0,.reply (.ok 0)⟩),2),
        (.command (.sendTx ⟨0,none⟩ ⟨.ok (),.ok 0,.reply (.ok 0)⟩),3)]
    ∃ w, run Lib.constant (World.start Db.empty) inputs = some w ∧ walletDrafts w = [.createTx [],.broadcastTx ""] ∧
      (∀ pre tx post, walletDrafts w = pre ++ .broadcastTx tx :: post →
        ∃ recipients, pre.getLast? = some (.createTx recipients)) ∧
      ∀ txid created, w.data.createdTxs.get? txid = some created →
        ∃ recipients, (walletDrafts w).getLast? = some (.createTx recipients) :=
  have ran : run Lib.constant (World.start Db.empty)
      [(.wallet (.utxos ⟨[]⟩),0),(.command (.createTx [] (.reply (.ok ⟨[],[]⟩))),1),
        (.command (.sendTx ⟨0,none⟩ ⟨.ok (),.ok 0,.reply (.ok 0)⟩),2),
        (.command (.sendTx ⟨0,none⟩ ⟨.ok (),.ok 0,.reply (.ok 0)⟩),3)] = some _ := rfl
  ⟨_,ran,rfl,wallet_broadcast_follows_create _ _ (Reached.of_run .start (fun _ _ => trivial) ran)⟩

end SideswapManager.Drafts
