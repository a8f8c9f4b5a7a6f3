import SideswapManager.Data

namespace SideswapManager

inductive MktQuoteStatus where
  | success (quoteId : QuoteId) (baseAmount quoteAmount serverFee fixedFee : UInt64) (ttl : Nat)
  | lowBalance (baseAmount quoteAmount serverFee fixedFee available : UInt64)
  | error (errorMsg : String)

structure QuoteNotif where
  quoteSubId : QuoteSubId
  status : MktQuoteStatus

-- Of the market server's responses and notifications only these variants are read; each
-- `other` stands for every variant the coordinator ignores.
inductive MktResponse where
  | listMarkets (markets : List MarketInfo)
  | other

inductive MktNotification where
  | marketAdded (market : MarketInfo)
  | marketRemoved (assetPair : AssetPair)
  | quote (notif : QuoteNotif)
  | other

inductive ApiResponse where
  | market (resp : MktResponse)
  | pegStatus (status : PegStatus)
  | other

inductive Notification where
  | pegStatus (status : PegStatus)
  | market (notif : MktNotification)
  | other

-- `ws::auto::WrappedResponse`, with `ResponseMessage` flattened into its two cases.
inductive WrappedResponse where
  | connected
  | disconnected
  | response (reqId : Nat) (res : Except String ApiResponse)
  | notification (notif : Notification)

inductive WalletEvent where
  | utxos (utxoData : UtxoData)

def World.modify (w : World) (f : Data → Data) : World := {w with data := f w.data}

@[simp] theorem World.modify_data (w : World) (f : Data → Data) : (w.modify f).data = f w.data := rfl
@[simp] theorem World.modify_db (w : World) (f : Data → Data) : (w.modify f).db = w.db := rfl
@[simp] theorem World.modify_sent (w : World) (f : Data → Data) : (w.modify f).sent = w.sent := rfl

def sendNotifs (d : Data) (notif : Notif) : Data :=
  {d with clients := d.clients.mapValues fun c => ⟨c.notifs ++ [notif]⟩}

def processPegStatus (d : Data) (status : PegStatus) : Data :=
  let d := if d.pegs.contains status.orderId then sendNotifs d (.pegStatus status) else d
  {d with pegStatuses := d.pegStatuses.insert status.orderId status}

def processMarketResp (d : Data) : MktResponse → Data
  | .listMarkets markets => {d with markets := markets}
  | .other => d

def processMarketNotif (d : Data) : MktNotification → Data
  | .marketAdded market => {d with markets := d.markets ++ [market]}
  | .marketRemoved pair => {d with markets := d.markets.filter fun m => m.assetPair ≠ pair}
  | .quote _ => d
  | .other => d

def processWsConnected (w : World) : World :=
  w.data.pegs.keys.foldl (fun w orderId => w.issue (.server (.pegStatus orderId)))
    (w.issue (.server .listMarkets))

def processWsEvent (w : World) : WrappedResponse → World
  | .connected => processWsConnected w
  | .disconnected => w
  | .response _ (.ok (.market resp)) => w.modify (processMarketResp · resp)
  | .response _ (.ok (.pegStatus status)) => w.modify (processPegStatus · status)
  | .response _ _ => w
  | .notification (.pegStatus status) => w.modify (processPegStatus · status)
  | .notification (.market notif) => w.modify (processMarketNotif · notif)
  | .notification .other => w

def addUtxoValue (totals : BTreeMap AssetId UInt64) (utxo : Utxo) : BTreeMap AssetId UInt64 :=
  totals.insert utxo.asset ((totals.get? utxo.asset).getD 0 + utxo.value)

def convertBalances (lib : Lib) (utxoData : UtxoData) : BTreeMap DealerTicker Float :=
  let totals := utxoData.utxos.foldl addUtxoValue BTreeMap.empty
  BTreeMap.ofList (totals.entries.filterMap fun (assetId,amount) =>
    (lib.tickers.ticker assetId).map fun ticker =>
      (ticker,lib.assetFloatAmount amount (lib.tickers.precision ticker)))

def processWalletEvent (lib : Lib) (d : Data) : WalletEvent → Data
  | .utxos utxoData =>
    let newBalances : BalancesNotif := ⟨convertBalances lib utxoData⟩
    let d := {d with utxoData := some utxoData}
    if d.lastBalances != some newBalances then
      {sendNotifs d (.balances newBalances) with lastBalances := some newBalances}
    else d

section Frames
variable (d : Data) (notif : Notif) (status : PegStatus)

@[simp] theorem sendNotifs_clients :
    (sendNotifs d notif).clients = d.clients.mapValues fun c => ⟨c.notifs ++ [notif]⟩ := rfl

@[simp] theorem processPegStatus_clients : (processPegStatus d status).clients =
    if d.pegs.contains status.orderId then
      d.clients.mapValues fun c => ⟨c.notifs ++ [.pegStatus status]⟩ else d.clients := by
  unfold processPegStatus; split <;> rfl

@[simp] theorem processPegStatus_pegStatuses :
    (processPegStatus d status).pegStatuses = d.pegStatuses.insert status.orderId status := by
  unfold processPegStatus; split <;> rfl

@[simp] theorem processPegStatus_pegs : (processPegStatus d status).pegs = d.pegs := by
  unfold processPegStatus; split <;> rfl

-- A peg status touches the client sinks and the status table, nothing else.
theorem processPegStatus_eq : processPegStatus d status =
    {d with
      clients := (processPegStatus d status).clients
      pegStatuses := d.pegStatuses.insert status.orderId status} := by
  unfold processPegStatus; split <;> rfl

theorem foldl_issue {α : Type} (l : List α) (msg : α → Outgoing) (w : World) :
    l.foldl (fun w a => w.issue (msg a)) w = {w with sent := w.sent ++ l.map fun a => ⟨msg a,w.data,w.db⟩} := by
  induction l generalizing w with
  | nil => simp
  | cons a rest ih => rw [List.foldl_cons, ih]; simp [World.issue]

@[simp] theorem processWsConnected_data (w : World) : (processWsConnected w).data = w.data := by
  rw [processWsConnected, foldl_issue]; rfl

@[simp] theorem processWsConnected_db (w : World) : (processWsConnected w).db = w.db := by
  rw [processWsConnected, foldl_issue]; rfl

theorem processWsConnected_sent (w : World) : (processWsConnected w).sent =
    w.sent ++ ⟨.server .listMarkets,w.data,w.db⟩ :: w.data.pegs.keys.map fun o => ⟨.server (.pegStatus o),w.data,w.db⟩ := by
  rw [processWsConnected, foldl_issue]; simp

@[simp] theorem processWsEvent_db (w : World) (event : WrappedResponse) :
    (processWsEvent w event).db = w.db := by
  unfold processWsEvent; split <;> simp

end Frames

end SideswapManager
