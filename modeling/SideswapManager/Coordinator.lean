import SideswapManager.GetQuote

namespace SideswapManager

-- A client command together with the environment's answers to the requests its handler makes.
inductive Command where
  | newAddress (userNote : Option String) (ans : NewAddressAnswers)
  | createTx (recipients : List ApiRecipient) (reply : WalletReply Transaction)
  | sendTx (req : SendTxReq) (ans : SendTxAnswers)
  | getQuote (req : GetQuoteReq) (ans : GetQuoteAnswers)
  | acceptQuote (req : AcceptQuoteReq) (ans : AcceptQuoteAnswers)
  | newPeg (req : NewPegReq) (ans : NewPegAnswers)
  | delPeg (orderId : OrderId)
  | getMonitoredTxs (reply : WalletReply (List WalletTx))
  | clientConnected (clientId : ClientId)
  | clientDisconnected (clientId : ClientId)

def replay (d : Data) : List Notif :=
  (d.lastBalances.map Notif.balances).toList ++ d.pegStatuses.values.map Notif.pegStatus

def respond {α : Type} (result : World × α) (reply : α → Reply) : World :=
  result.1.issue (.reply (reply result.2))

@[simp] theorem respond_data {α : Type} (result : World × α) (reply : α → Reply) :
    (respond result reply).data = result.1.data := rfl

@[simp] theorem respond_db {α : Type} (result : World × α) (reply : α → Reply) :
    (respond result reply).db = result.1.db := rfl

-- `None` is a panic of the coordinator task.
def processCommand (lib : Lib) (w : World) : Command → Option World
  | .newAddress userNote ans => some (respond (newAddress w userNote ans) .newAddress)
  | .createTx recipients reply => some (respond (createTx lib w recipients reply) .createTx)
  | .sendTx req ans => (sendTx lib w req ans).map (respond · .sendTx)
  | .getQuote req ans => some (respond (getQuote lib w req ans) .getQuote)
  | .acceptQuote req ans => (acceptQuote lib w req ans).map (respond · .acceptQuote)
  | .newPeg req ans => some (respond (newPeg w req ans) .newPeg)
  | .delPeg orderId => some (respond (delPeg w orderId) .delPeg)
  | .getMonitoredTxs reply => some (respond (getMonitoredTxs w reply) .getMonitoredTxs)
  | .clientConnected clientId =>
    some (w.modify fun d => {d with clients := d.clients.insert clientId ⟨replay d⟩})
  | .clientDisconnected clientId =>
    if w.data.clients.contains clientId then
      some (w.modify fun d => {d with clients := d.clients.remove clientId})
    else none

inductive Input where
  | wallet (event : WalletEvent)
  | command (cmd : Command)
  | ws (event : WrappedResponse)

def sweepQuotes (w : World) (now : Instant) : World :=
  w.modify fun d => {d with quotes := d.quotes.retain fun _ quote => quote.ttlValid now}

def branch (lib : Lib) (w : World) : Input → Option World
  | .wallet event => some (w.modify (processWalletEvent lib · event))
  | .command cmd => processCommand lib w cmd
  | .ws event => some (processWsEvent w event)

-- One cycle of the main loop: the chosen branch, then the quote sweep at `now`.
def step (lib : Lib) (w : World) (input : Input) (now : Instant) : Option World :=
  (branch lib w input).map (sweepQuotes · now)

def run (lib : Lib) (w : World) : List (Input × Instant) → Option World
  | [] => some w
  | (input,now) :: rest => (step lib w input now).bind (run lib · rest)

-- The tables `run` loads from persistence; everything else starts empty.
def load (db : Db) : Data where
  markets := []
  clients := ∅
  lastBalances := none
  utxoData := none
  pegs := BTreeMap.ofList (db.loadPegs.map fun orderId => (orderId,()))
  pegStatuses := ∅
  monitoredTxs := BTreeMap.ofList (db.loadMonitoredTxs.map fun m => (m.txid,m))
  quotes := ∅
  createdTxs := ∅
  addresses := BTreeMap.ofList (db.loadAddresses.map fun addr => (UInt32.ofNat addr.ind,addr))

def World.start (db : Db) : World := ⟨load db,db,[]⟩

def Lib.constant : Lib where
  policyAsset := 0
  tickers := ⟨fun _ => true,id,fun _ => 8,some⟩
  txid _ := 0
  feeIn _ _ := 0
  serializeHex _ := ""
  encodePset _ := ""
  decodePset _ := .ok ⟨[]⟩
  extractTx _ := .ok ⟨[],[]⟩
  signPset _ pset := pset
  assetIntAmount _ _ := 0
  assetFloatAmount _ _ := 0
  showAmount _ := ""
  showTicker _ := ""
  showWsError _ := ""

-- The states of every run from a load of `db` whose inputs all satisfy `allowed`.
inductive Reached (lib : Lib) (allowed : Input → Prop) (db : Db) : World → Prop where
  | start : Reached lib allowed db (World.start db)
  | cycle {w w' : World} {input : Input} {now : Instant} : Reached lib allowed db w → allowed input →
      step lib w input now = some w' → Reached lib allowed db w'

theorem Reached.induct_on {lib : Lib} {allowed : Input → Prop} {db : Db} {P : World → Prop}
    (start : P (World.start db))
    (preserve : ∀ w w' input now, P w → allowed input → step lib w input now = some w' → P w')
    {w : World} (reached : Reached lib allowed db w) : P w := by
  induction reached with
  | start => exact start
  | cycle _ ok ran ih => exact preserve _ _ _ _ ih ok ran

theorem Reached.of_run {lib : Lib} {allowed : Input → Prop} {db : Db} {w w' : World}
    {inputs : List (Input × Instant)} (reached : Reached lib allowed db w) (ok : ∀ p ∈ inputs, allowed p.1)
    (ran : run lib w inputs = some w') : Reached lib allowed db w' := by
  induction inputs generalizing w with
  | nil => cases ran; exact reached
  | cons p rest ih =>
    obtain ⟨next,stepped,later⟩ := Option.bind_eq_some.mp ran
    exact ih (.cycle reached (ok p (List.mem_cons_self _ _)) stepped) (fun q m => ok q (List.mem_cons_of_mem _ m)) later

theorem step_eq_some {lib : Lib} {w w' : World} {input : Input} {now : Instant}
    (ran : step lib w input now = some w') : ∃ next, branch lib w input = some next ∧ w' = sweepQuotes next now := by
  obtain ⟨next,found,rfl⟩ := Option.map_eq_some'.mp ran
  exact ⟨next,found,rfl⟩

end SideswapManager
