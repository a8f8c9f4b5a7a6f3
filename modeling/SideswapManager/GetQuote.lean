import SideswapManager.Handlers

namespace SideswapManager

structure Asset where
  assetId : AssetId
  precision : AssetPrecision

def tryGetAsset (tickers : TickerLoader) (ticker : DealerTicker) : Except Error Asset :=
  if tickers.hasTicker ticker then .ok ⟨tickers.assetId ticker,tickers.precision ticker⟩
  else .error (.unknownTicker ticker)

-- The market search of `get_quote`: the pair in either orientation.
def marketMatches (send recv : AssetId) (market : MarketInfo) : Bool :=
  market.assetPair.base = send && market.assetPair.quote = recv ||
    market.assetPair.base = recv && market.assetPair.quote = send

def findMarket (markets : List MarketInfo) (send recv : AssetId) : Option MarketInfo :=
  markets.find? (marketMatches send recv)

def baseTradeDirOf : AssetType → TradeDir
  | .base => .sell
  | .quote => .buy

def quoteAmounts (baseTradeDir : TradeDir) (feeAsset : AssetType) (baseAmount quoteAmount totalFee : UInt64) :
    UInt64 × UInt64 :=
  match baseTradeDir,feeAsset with
  | .sell,.base => (saturatingAdd baseAmount totalFee,quoteAmount)
  | .sell,.quote => (baseAmount,saturatingSub quoteAmount totalFee)
  | .buy,.base => (quoteAmount,saturatingSub baseAmount totalFee)
  | .buy,.quote => (saturatingAdd quoteAmount totalFee,baseAmount)

inductive QuoteStatus where
  | disconnected
  | timeout
  | quote (notif : QuoteNotif)

def quoteStatusOf (quoteSubId : QuoteSubId) : WrappedResponse → Option QuoteStatus
  | .disconnected => some .disconnected
  | .notification (.market (.quote notif)) =>
    if notif.quoteSubId = quoteSubId then some (.quote notif) else none
  | _ => none

-- The wait loop over the server events before the deadline; running out of them is the timeout.
def waitQuote (w : World) (quoteSubId : QuoteSubId) : List WrappedResponse → World × QuoteStatus
  | [] => (w,.timeout)
  | event :: rest =>
    let w := processWsEvent w event
    match quoteStatusOf quoteSubId event with
    | some status => (w,status)
    | none => waitQuote w quoteSubId rest

structure GetQuoteReq where
  sendAsset : DealerTicker
  sendAmount : Float
  recvAsset : DealerTicker
  receiveAddress : String

structure MktGetQuoteResp where
  pset : String
  ttl : Nat

-- The wallet's and the server's answers, and the instant `expires_at` is taken at.
structure GetQuoteAnswers where
  changeAddress : WalletReply NewAddrResp
  startQuotes : Except WsError QuoteSubId
  events : List WrappedResponse
  getQuote : Except WsError MktGetQuoteResp
  now : Instant

def quoteNote (lib : Lib) (req : GetQuoteReq) (recvAmount : Float) : String :=
  "swap " ++ lib.showAmount req.sendAmount ++ " " ++ lib.showTicker req.sendAsset ++ " for " ++
    lib.showAmount recvAmount ++ " " ++ lib.showTicker req.recvAsset ++ " to " ++ req.receiveAddress

-- `get_quote` after the wait, on the status of the matching Quote notification.
def finishQuote (lib : Lib) (w : World) (req : GetQuoteReq) (ans : GetQuoteAnswers) (send recv : Asset)
    (baseTradeDir : TradeDir) (feeAsset : AssetType) (sendAmount : UInt64) :
    MktQuoteStatus → World × Except Error GetQuoteResp
  | .success quoteId baseAmount quoteAmount serverFee fixedFee ttl =>
    let totalFee := serverFee + fixedFee
    let (quoteSendAmount,quoteRecvAmount) := quoteAmounts baseTradeDir feeAsset baseAmount quoteAmount totalFee
    if quoteSendAmount ≠ sendAmount then
      (w,.error (.notEnoughAmount send.assetId sendAmount quoteSendAmount))
    else
      let recvAmount := lib.assetFloatAmount quoteRecvAmount recv.precision
      let w := w.issue (.server (.getQuote quoteId))
      match ans.getQuote with
      | .error err => (w,.error (.wsError err))
      | .ok quoteResp =>
        match lib.decodePset quoteResp.pset with
        | .error err => (w,.error (.codec err))
        | .ok pset =>
          match lib.extractTx pset with
          | .error err => (w,.error (.codec err))
          | .ok tx =>
            let txid := lib.txid tx
            let expiresAt := ans.now + quoteResp.ttl
            match w.data.utxoData with
            | none => (w,.error .noUtxos)
            | some utxoData =>
              let quote : Quote := ⟨txid,lib.signPset utxoData pset,expiresAt,quoteNote lib req recvAmount⟩
              (w.modify fun d => {d with quotes := d.quotes.insert quoteId quote},
                .ok ⟨quoteId,recvAmount,ttl,txid⟩)
  | .lowBalance _ _ _ _ available => (w,.error (.notEnoughAmount send.assetId sendAmount available))
  | .error errorMsg => (w,.error (.quoteError errorMsg))

def getQuote (lib : Lib) (w : World) (req : GetQuoteReq) (ans : GetQuoteAnswers) :
    World × Except Error GetQuoteResp :=
  match tryGetAsset lib.tickers req.sendAsset,tryGetAsset lib.tickers req.recvAsset with
  | .error err,_ => (w,.error err)
  | .ok _,.error err => (w,.error err)
  | .ok send,.ok recv =>
    match findMarket w.data.markets send.assetId recv.assetId with
    | none => (w,.error .noMarket)
    | some market =>
      let assetType := if market.assetPair.base = send.assetId then AssetType.base else .quote
      match tryConvertAssetAmount lib req.sendAmount send.precision with
      | .error err => (w,.error err)
      | .ok sendAmount =>
        match getNewAddress w true none ans.changeAddress with
        | (w,.error err) => (w,.error err)
        | (w,.ok change) =>
          match w.data.utxoData with
          | none => (w,.error .noUtxos)
          | some utxoData =>
            let utxos := utxoData.utxos.filter (·.asset = send.assetId)
            let total := (utxos.map (·.value)).foldl (· + ·) 0
            if total < sendAmount then (w,.error (.notEnoughAmount send.assetId sendAmount total))
            else
              let w := w.issue (.server (.startQuotes market.assetPair assetType sendAmount .sell utxos
                req.receiveAddress change.address))
              match ans.startQuotes with
              | .error err => (w,.error (.wsError err))
              | .ok quoteSubId =>
                match waitQuote w quoteSubId ans.events with
                | (w,.disconnected) => (w,.error (.wsError .disconnected))
                | (w,.timeout) => (w,.error (.wsError .timeout))
                | (w,.quote notif) =>
                  finishQuote lib w req ans send recv (baseTradeDirOf assetType) market.feeAsset sendAmount
                    notif.status

end SideswapManager
