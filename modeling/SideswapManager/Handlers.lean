import SideswapManager.Events

namespace SideswapManager

def GAP_LIMIT : UInt32 := 20

-- What comes back on a wallet request's one-shot channel.
inductive WalletReply (α : Type) where
  | sendFailed
  | recvFailed
  | reply (res : Except String α)

def WalletReply.result {α : Type} : WalletReply α → Except Error α
  | .sendFailed => .error (.channel "sending on a closed channel")
  | .recvFailed => .error (.channel "channel closed")
  | .reply (.error err) => .error (.wallet err)
  | .reply (.ok resp) => .ok resp

-- The command is issued unless sending it failed.
def World.request {α : Type} (w : World) (cmd : WalletCommand) (reply : WalletReply α) :
    World × Except Error α :=
  match reply with
  | .sendFailed => (w,reply.result)
  | _ => (w.issue (.wallet cmd),reply.result)

structure NewAddrResp where
  index : UInt32
  address : String

def getNewAddress (w : World) (change : Bool) (index : Option UInt32) (reply : WalletReply NewAddrResp) :
    World × Except Error NewAddrResp :=
  w.request (.newAddress change index) reply

def firstUnusedDb (addresses : BTreeMap UInt32 Address) : UInt32 :=
  (addresses.lastKeyValue.map fun (_,value) => UInt32.ofNat value.ind + 1).getD 0

structure NewAddressAnswers where
  firstUnused : WalletReply NewAddrResp
  newAddress : WalletReply NewAddrResp

def newAddress (w : World) (userNote : Option String) (ans : NewAddressAnswers) :
    World × Except Error NewAddressResp :=
  match getNewAddress w false none ans.firstUnused with
  | (w,.error err) => (w,.error err)
  | (w,.ok first) =>
    let firstUnusedWallet := first.index
    let newIndex := max firstUnusedWallet (firstUnusedDb w.data.addresses)
    if newIndex - firstUnusedWallet < GAP_LIMIT then
      match getNewAddress w false (some newIndex) ans.newAddress with
      | (w,.error err) => (w,.error err)
      | (w,.ok newAddr) =>
        let addr : Address := ⟨newIndex.toNat,newAddr.address,userNote⟩
        let w := {w with db := w.db.addAddress addr}
        (w.modify fun d => {d with addresses := d.addresses.insert newIndex addr},
          .ok ⟨newIndex,newAddr.address⟩)
    else (w,.error .gapLimit)

def tryConvertAssetAmount (lib : Lib) (amount : Float) (precision : AssetPrecision) : Except Error UInt64 :=
  let intAmount := lib.assetIntAmount amount precision
  if lib.assetFloatAmount intAmount precision == amount then .ok intAmount
  else .error (.invalidAssetAmount amount precision)

structure ApiRecipient where
  address : String
  asset : DealerTicker
  amount : Float

def convertRecipient (lib : Lib) (recipient : ApiRecipient) : Except Error Recipient :=
  if lib.tickers.hasTicker recipient.asset then
    (tryConvertAssetAmount lib recipient.amount (lib.tickers.precision recipient.asset)).map
      fun amount => ⟨recipient.address,lib.tickers.assetId recipient.asset,amount⟩
  else .error (.unknownTicker recipient.asset)

def createTxNote (lib : Lib) (recipients : List ApiRecipient) : String :=
  ", ".intercalate (recipients.map fun r =>
    "send " ++ lib.showAmount r.amount ++ " " ++ lib.showTicker r.asset ++ " to " ++ r.address)

def createTx (lib : Lib) (w : World) (recipients : List ApiRecipient) (reply : WalletReply Transaction) :
    World × Except Error CreateTxResp :=
  let note := createTxNote lib recipients
  match recipients.mapM (convertRecipient lib) with
  | .error err => (w,.error err)
  | .ok converted =>
    match w.request (.createTx converted) reply with
    | (w,.error err) => (w,.error err)
    | (w,.ok tx) =>
      let txid := lib.txid tx
      (w.modify fun d => {d with createdTxs := d.createdTxs.insert txid ⟨tx,note⟩},
        .ok ⟨txid,lib.feeIn tx lib.policyAsset⟩)

def newMonitoredTx (w : World) (monitoredTx : MonitoredTx) : World :=
  {w with
    db := w.db.addMonitoredTx monitoredTx
    data := {w.data with monitoredTxs := w.data.monitoredTxs.insert monitoredTx.txid monitoredTx}}

-- The block of `send_tx` that checks the inputs against the wallet's UTXOs.
def utxoCheck (tx : Transaction) : Option UtxoData → Except Error Unit
  | none => .error (.utxoCheckFailed "utxo_data is None")
  | some utxoData =>
    let remaining := utxoData.utxos.foldl (fun txOutpoints utxo => txOutpoints.filter (· ≠ utxo.outpoint))
      (tx.input.map (·.previousOutput))
    if remaining.isEmpty then .ok () else .error (.utxoCheckFailed "Can't find wallet UTXOs")

structure SendTxReq where
  txid : Txid
  userNote : Option String

structure SendTxAnswers where
  checkOutpoints : Except WsError Unit
  serverBroadcast : Except WsError Txid
  walletBroadcast : WalletReply Txid

def broadcastStatus {ε α : Type} (display : ε → String) : Except ε α → BroadcastStatus
  | .ok _ => .success
  | .error err => .error (display err)

-- `None` is a panic of the coordinator: here the `expect` on the wallet's reply.
def sendTx (lib : Lib) (w : World) (req : SendTxReq) (ans : SendTxAnswers) :
    Option (World × Except Error SendTxResp) :=
  match w.data.createdTxs.get? req.txid with
  | none => some (w,.error .noCreatedTx)
  | some created =>
    let outpoints := created.tx.input.map (·.previousOutput)
    match utxoCheck created.tx w.data.utxoData with
    | .error err => some (w,.error err)
    | .ok () =>
      let w := w.issue (.server (.checkOutpoints outpoints))
      match ans.checkOutpoints with
      | .error err => some (w,.error (.utxoCheckFailed (lib.showWsError err)))
      | .ok () =>
        let w := newMonitoredTx w ⟨req.txid,some created.note,req.userNote⟩
        let w := w.issue (.server (.broadcastTx created.tx))
        match ans.walletBroadcast with
        | .sendFailed => some (w,.error (.channel "sending on a closed channel"))
        | .recvFailed => none
        | .reply resWallet =>
          let w := w.issue (.wallet (.broadcastTx (lib.serializeHex created.tx)))
          some (w.modify fun d => {d with createdTxs := ∅},
            .ok ⟨broadcastStatus id resWallet,broadcastStatus lib.showWsError ans.serverBroadcast⟩)

structure AcceptQuoteReq where
  quoteId : QuoteId
  userNote : Option String

structure AcceptQuoteAnswers where
  now : Instant
  takerSign : Except WsError Txid

-- `None` is the panic of `assert_eq!` on the returned txid.
def acceptQuote (lib : Lib) (w : World) (req : AcceptQuoteReq) (ans : AcceptQuoteAnswers) :
    Option (World × Except Error Txid) :=
  match w.data.quotes.get? req.quoteId with
  | none => some (w,.error .noQuote)
  | some quote =>
    if quote.ttlValid ans.now then
      let pset := lib.encodePset quote.pset
      let w := newMonitoredTx w ⟨quote.txid,some quote.note,req.userNote⟩
      let w := w.issue (.server (.takerSign req.quoteId pset))
      match ans.takerSign with
      | .error err => some (w,.error (.wsError err))
      | .ok txid => if quote.txid = txid then some (w,.ok txid) else none
    else some (w,.error .quoteExpired)

structure NewPegReq where
  recvAddr : String
  pegIn : Bool
  blocks : Option Nat

structure PegResp where
  orderId : OrderId
  pegAddr : String

structure NewPegAnswers where
  peg : Except WsError PegResp
  pegStatus : Except WsError PegStatus

def newPeg (w : World) (req : NewPegReq) (ans : NewPegAnswers) : World × Except Error (OrderId × String) :=
  let w := w.issue (.server (.peg req.recvAddr req.pegIn req.blocks))
  match ans.peg with
  | .error err => (w,.error (.wsError err))
  | .ok resp =>
    let w := w.issue (.server (.pegStatus resp.orderId))
    match ans.pegStatus with
    | .error err => (w,.error (.wsError err))
    | .ok status =>
      let w := w.modify (processPegStatus · status)
      let w := {w with db := w.db.addPeg resp.orderId}
      (w.modify fun d => {d with pegs := d.pegs.insert resp.orderId ()},.ok (resp.orderId,resp.pegAddr))

def delPeg (w : World) (orderId : OrderId) : World × Except Error Unit :=
  ({w with db := w.db.deletePeg orderId},.ok ())

structure WalletTx where
  txid : Txid
  height : Option Nat

def monitoredStatus (txs : List WalletTx) (monitoredTx : MonitoredTx) : ApiMonitoredTx :=
  let status := match txs.find? (·.txid = monitoredTx.txid) with
    | some tx => if tx.height.isSome then SwapStatus.confirmed else .mempool
    | none => .notFound
  ⟨monitoredTx.txid,status,monitoredTx.description.getD "",monitoredTx.userNote⟩

def getMonitoredTxs (w : World) (reply : WalletReply (List WalletTx)) :
    World × Except Error (List ApiMonitoredTx) :=
  match w.request (.getTxs w.data.monitoredTxs.keys) reply with
  | (w,.error err) => (w,.error err)
  | (w,.ok txs) => (w,.ok (w.data.monitoredTxs.values.map (monitoredStatus txs)))

end SideswapManager
