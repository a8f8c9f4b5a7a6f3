import SideswapManager.BTree
import SideswapManager.Machine

namespace SideswapManager

-- Hashes and server-assigned ids are only compared and stored, never computed on.
abbrev Txid := Nat
abbrev AssetId := Nat
abbrev OrderId := Nat
abbrev QuoteId := Nat
abbrev QuoteSubId := Nat
abbrev DealerTicker := Nat
abbrev AssetPrecision := Nat
-- `tokio::time::Instant`, in milliseconds of the monotonic clock.
abbrev Instant := Nat
-- `ws_server::ClientId(u64)`.
abbrev ClientId := UInt64

structure OutPoint where
  txid : Txid
  vout : UInt32
  deriving DecidableEq

structure TxIn where
  previousOutput : OutPoint

structure TxOut where
  asset : AssetId
  value : UInt64

structure Transaction where
  input : List TxIn
  output : List TxOut

-- A partially signed transaction, as its consensus serialisation.
structure Pset where
  bytes : List UInt8

structure Utxo where
  txid : Txid
  vout : UInt32
  asset : AssetId
  value : UInt64

def Utxo.outpoint (u : Utxo) : OutPoint := ⟨u.txid,u.vout⟩

structure UtxoData where
  utxos : List Utxo

structure AssetPair where
  base : AssetId
  quote : AssetId
  deriving DecidableEq

inductive AssetType where
  | base
  | quote
  deriving DecidableEq

inductive TradeDir where
  | sell
  | buy
  deriving DecidableEq

-- Fields the coordinator passes on unread are kept as one serialised `details` field.
structure MarketInfo where
  assetPair : AssetPair
  feeAsset : AssetType
  details : String
  deriving DecidableEq

structure PegStatus where
  orderId : OrderId
  details : String
  deriving DecidableEq

structure BalancesNotif where
  balances : BTreeMap DealerTicker Float

-- `PartialEq` of the notification: entry by entry, amounts by IEEE equality.
instance balancesNotifBEq : BEq BalancesNotif := ⟨fun a b => a.balances.entries == b.balances.entries⟩

inductive Notif where
  | balances (notif : BalancesNotif)
  | pegStatus (status : PegStatus)

-- A client's `notif_sender`, as the notifications pushed into it so far, oldest first.
structure ClientData where
  notifs : List Notif

structure Quote where
  txid : Txid
  pset : Pset
  expiresAt : Instant
  note : String

def Quote.ttlValid (q : Quote) (now : Instant) : Bool := now < q.expiresAt

structure CreatedTx where
  tx : Transaction
  note : String

structure MonitoredTx where
  txid : Txid
  description : Option String
  userNote : Option String

-- `ind` is the persisted index column: `new_index.into()` on the way in, `as u32` on the way out.
structure Address where
  ind : Nat
  address : String
  userNote : Option String

structure Data where
  markets : List MarketInfo
  clients : BTreeMap ClientId ClientData
  lastBalances : Option BalancesNotif
  utxoData : Option UtxoData
  pegs : BTreeSet OrderId
  pegStatuses : BTreeMap OrderId PegStatus
  monitoredTxs : BTreeMap Txid MonitoredTx
  quotes : BTreeMap QuoteId Quote
  createdTxs : BTreeMap Txid CreatedTx
  addresses : BTreeMap UInt32 Address

/-- Modelled from the spec: the persistence port (§4.1), whose `db` module is not among the
sources. Every table is keyed by its record's key column, and each write is awaited before the
coordinator goes on. -/
structure Db where
  pegs : BTreeSet OrderId
  monitoredTxs : BTreeMap Txid MonitoredTx
  addresses : BTreeMap Nat Address
  monitoredKeyed : ∀ k m, monitoredTxs.get? k = some m → m.txid = k
  addressesKeyed : ∀ k a, addresses.get? k = some a → a.ind = k

namespace Db

theorem insert_keyed {V : Type} {m : BTreeMap Nat V} {key : V → Nat}
    (keyed : ∀ k v, m.get? k = some v → key v = k) (v : V) :
    ∀ k w, (m.insert (key v) v).get? k = some w → key w = k := by
  intro k w found
  rw [BTreeMap.get?_insert] at found
  split at found
  · rename_i same; cases found; exact same.symm
  · exact keyed k w found

def empty : Db := ⟨∅,∅,∅,(fun _ _ found => nomatch found),(fun _ _ found => nomatch found)⟩

def addPeg (db : Db) (orderId : OrderId) : Db := {db with pegs := db.pegs.insert orderId ()}

def deletePeg (db : Db) (orderId : OrderId) : Db := {db with pegs := db.pegs.remove orderId}

def addMonitoredTx (db : Db) (m : MonitoredTx) : Db :=
  {db with
    monitoredTxs := db.monitoredTxs.insert m.txid m
    monitoredKeyed := insert_keyed db.monitoredKeyed m}

def addAddress (db : Db) (a : Address) : Db :=
  {db with
    addresses := db.addresses.insert a.ind a
    addressesKeyed := insert_keyed db.addressesKeyed a}

def loadPegs (db : Db) : List OrderId := db.pegs.keys

def loadMonitoredTxs (db : Db) : List MonitoredTx := db.monitoredTxs.values

def loadAddresses (db : Db) : List Address := db.addresses.values

end Db

inductive WsError where
  | disconnected
  | timeout
  | rejected (text : String)

structure TickerLoader where
  hasTicker : DealerTicker → Bool
  assetId : DealerTicker → AssetId
  precision : DealerTicker → AssetPrecision
  ticker : AssetId → Option DealerTicker

-- The constants and library functions the coordinator calls and does not define: the
-- policy asset, the ticker loader, elements' hashing and encodings, the wallet's signer, the
-- amount conversions of `sideswap_common::types` and `Display` of amounts, tickers and
-- server errors.
structure Lib where
  policyAsset : AssetId
  tickers : TickerLoader
  txid : Transaction → Txid
  feeIn : Transaction → AssetId → UInt64
  serializeHex : Transaction → String
  encodePset : Pset → String
  decodePset : String → Except String Pset
  extractTx : Pset → Except String Transaction
  signPset : UtxoData → Pset → Pset
  assetIntAmount : Float → AssetPrecision → UInt64
  assetFloatAmount : UInt64 → AssetPrecision → Float
  showAmount : Float → String
  showTicker : DealerTicker → String
  showWsError : WsError → String

inductive Error where
  | unknownTicker (ticker : DealerTicker)
  | invalidAssetAmount (amount : Float) (precision : AssetPrecision)
  | gapLimit
  | noMarket
  | noQuote
  | quoteExpired
  | quoteError (msg : String)
  | notEnoughAmount (assetId : AssetId) (required available : UInt64)
  | noCreatedTx
  | utxoCheckFailed (text : String)
  | noUtxos
  | wallet (text : String)
  | wsError (err : WsError)
  | channel (text : String)
  | codec (text : String)

structure Recipient where
  address : String
  assetId : AssetId
  amount : UInt64

inductive ServerRequest where
  | listMarkets
  | pegStatus (orderId : OrderId)
  | peg (recvAddr : String) (pegIn : Bool) (blocks : Option Nat)
  | checkOutpoints (outpoints : List OutPoint)
  | broadcastTx (tx : Transaction)
  | startQuotes (assetPair : AssetPair) (assetType : AssetType) (amount : UInt64)
      (tradeDir : TradeDir) (utxos : List Utxo) (receiveAddress changeAddress : String)
  | getQuote (quoteId : QuoteId)
  | takerSign (quoteId : QuoteId) (pset : String)

inductive WalletCommand where
  | newAddress (change : Bool) (index : Option UInt32)
  | createTx (recipients : List Recipient)
  | broadcastTx (tx : String)
  | getTxs (txids : List Txid)

structure NewAddressResp where
  index : UInt32
  address : String

structure CreateTxResp where
  txid : Txid
  networkFee : UInt64

inductive BroadcastStatus where
  | success
  | error (errorMsg : String)

structure SendTxResp where
  resWallet : BroadcastStatus
  resServer : BroadcastStatus

structure GetQuoteResp where
  quoteId : QuoteId
  recvAmount : Float
  ttl : Nat
  txid : Txid

inductive SwapStatus where
  | confirmed
  | mempool
  | notFound

structure ApiMonitoredTx where
  txid : Txid
  status : SwapStatus
  description : String
  userNote : Option String

inductive Reply where
  | newAddress (res : Except Error NewAddressResp)
  | createTx (res : Except Error CreateTxResp)
  | sendTx (res : Except Error SendTxResp)
  | getQuote (res : Except Error GetQuoteResp)
  | acceptQuote (res : Except Error Txid)
  | newPeg (res : Except Error (OrderId × String))
  | delPeg (res : Except Error Unit)
  | getMonitoredTxs (res : Except Error (List ApiMonitoredTx))

inductive Outgoing where
  | server (req : ServerRequest)
  | wallet (cmd : WalletCommand)
  | reply (r : Reply)

-- Each message the coordinator sends, with its memory and the persisted tables at that instant.
structure Sent where
  msg : Outgoing
  data : Data
  db : Db

structure World where
  data : Data
  db : Db
  sent : List Sent

namespace World

def issue (w : World) (msg : Outgoing) : World := {w with sent := w.sent ++ [⟨msg,w.data,w.db⟩]}

@[simp] theorem issue_data (w : World) (msg : Outgoing) : (w.issue msg).data = w.data := rfl
@[simp] theorem issue_db (w : World) (msg : Outgoing) : (w.issue msg).db = w.db := rfl
@[simp] theorem issue_sent (w : World) (msg : Outgoing) :
    (w.issue msg).sent = w.sent ++ [⟨msg,w.data,w.db⟩] := rfl

end World

end SideswapManager
