import SideswapManager.Coordinator

namespace SideswapManager.Markets

-- The three server events that write `markets`.
inductive MarketEvent where
  | listed (markets : List MarketInfo)
  | added (market : MarketInfo)
  | removed (assetPair : AssetPair)

def MarketEvent.wrapped : MarketEvent → WrappedResponse
  | .listed markets => .response 0 (.ok (.market (.listMarkets markets)))
  | .added market => .notification (.market (.marketAdded market))
  | .removed assetPair => .notification (.market (.marketRemoved assetPair))

def applyMarketEvent (d : Data) : MarketEvent → Data
  | .listed markets => processMarketResp d (.listMarkets markets)
  | .added market => processMarketNotif d (.marketAdded market)
  | .removed assetPair => processMarketNotif d (.marketRemoved assetPair)

theorem processWsEvent_market (w : World) (event : MarketEvent) :
    (processWsEvent w event.wrapped).data = applyMarketEvent w.data event := by
  cases event <;> rfl

theorem processWsEvents_market (events : List MarketEvent) (w : World) :
    ((events.map MarketEvent.wrapped).foldl processWsEvent w).data = events.foldl applyMarketEvent w.data := by
  induction events generalizing w with
  | nil => rfl
  | cons event rest ih => rw [List.map_cons, List.foldl_cons, ih, processWsEvent_market, List.foldl_cons]

-- What `markets` is for: a map keyed by asset pair.
def applyKeyed (known : AssetPair → Option MarketInfo) : MarketEvent → AssetPair → Option MarketInfo
  | .listed markets => fun pair => markets.find? (·.assetPair = pair)
  | .added market => fun pair => if pair = market.assetPair then some market else known pair
  | .removed assetPair => fun pair => if pair = assetPair then none else known pair

def keyed (events : List MarketEvent) : AssetPair → Option MarketInfo :=
  events.foldl applyKeyed fun _ => none

-- The server lists distinct pairs and never re-announces a pair the map holds.
def Fresh (known : AssetPair → Option MarketInfo) : List MarketEvent → Prop
  | [] => True
  | .listed markets :: rest => (markets.map (·.assetPair)).Nodup ∧ Fresh (applyKeyed known (.listed markets)) rest
  | .added market :: rest => known market.assetPair = none ∧ Fresh (applyKeyed known (.added market)) rest
  | .removed assetPair :: rest => Fresh (applyKeyed known (.removed assetPair)) rest

structure Agrees (markets : List MarketInfo) (known : AssetPair → Option MarketInfo) : Prop where
  unique : (markets.map (·.assetPair)).Nodup
  lookup : ∀ pair, markets.find? (·.assetPair = pair) = known pair

theorem agrees_empty : Agrees [] fun _ => none := ⟨List.nodup_nil,fun _ => rfl⟩

theorem find?_eq_none_of_absent {markets : List MarketInfo} {pair : AssetPair}
    (absent : markets.find? (·.assetPair = pair) = none) : pair ∉ markets.map (·.assetPair) := by
  simp only [List.find?_eq_none, decide_eq_true_eq] at absent
  simpa using absent

theorem agrees_apply {markets : List MarketInfo} {known : AssetPair → Option MarketInfo} (d : Data)
    (agrees : Agrees markets known) (event : MarketEvent)
    (fresh : match event with
      | .listed listed => (listed.map (·.assetPair)).Nodup
      | .added market => known market.assetPair = none
      | .removed _ => True) :
    Agrees (applyMarketEvent {d with markets := markets} event).markets (applyKeyed known event) := by
  cases event with
  | listed listed => exact ⟨fresh,fun _ => rfl⟩
  | added market =>
    refine ⟨?_,fun pair => ?_⟩
    · simp only [applyMarketEvent, processMarketNotif, List.map_append, List.map_singleton]
      have absent := find?_eq_none_of_absent ((agrees.lookup _).trans fresh)
      exact List.pairwise_append.mpr ⟨agrees.unique,List.pairwise_singleton _ _,
        fun _ listed _ added => by rw [List.mem_singleton.mp added]; exact fun same => absent (same ▸ listed)⟩
    · simp only [applyMarketEvent, processMarketNotif, applyKeyed, List.find?_append, agrees.lookup]
      by_cases same : pair = market.assetPair
      · subst same; simp [fresh]
      · simp [same, Ne.symm same]
  | removed removed =>
    refine ⟨List.Nodup.sublist ((List.filter_sublist _).map _) agrees.unique,fun pair => ?_⟩
    simp only [applyMarketEvent, processMarketNotif, applyKeyed, List.find?_filter]
    by_cases same : pair = removed
    · subst same; simp [List.find?_eq_none]
    · rw [if_neg same, ← agrees.lookup]
      congr 1; funext m
      by_cases here : m.assetPair = pair <;> simp [here, same]

theorem agrees_run (events : List MarketEvent) :
    ∀ (d : Data) (known : AssetPair → Option MarketInfo), Agrees d.markets known → Fresh known events →
      Agrees (events.foldl applyMarketEvent d).markets (events.foldl applyKeyed known) := by
  induction events with
  | nil => exact fun _ _ agrees _ => agrees
  | cons event rest ih =>
    intro d known agrees fresh
    cases event <;> simp only [Fresh] at fresh
    all_goals first
      | exact ih _ _ (agrees_apply d agrees _ fresh.1) fresh.2
      | exact ih _ _ (agrees_apply d agrees _ trivial) fresh

theorem marketMatches_eq {send recv : AssetId} {m : MarketInfo} (notReverse : m.assetPair ≠ ⟨recv,send⟩) :
    marketMatches send recv m = decide (m.assetPair = ⟨send,recv⟩) := by
  obtain ⟨⟨base,quote⟩,_,_⟩ := m
  simp only [marketMatches, ne_eq, AssetPair.mk.injEq, Bool.decide_and, Bool.or_eq_true, Bool.and_eq_true,
    decide_eq_true_eq] at notReverse ⊢
  by_cases b : base = recv <;> simp_all

theorem findMarket_eq_find? (markets : List MarketInfo) (send recv : AssetId)
    (noReverse : ∀ m ∈ markets, m.assetPair ≠ ⟨recv,send⟩) :
    findMarket markets send recv = markets.find? (·.assetPair = ⟨send,recv⟩) := by
  induction markets with
  | nil => rfl
  | cons m rest ih =>
    simp only [findMarket, List.find?_cons, marketMatches_eq (noReverse m (List.mem_cons_self _ _))] at ih ⊢
    rw [ih fun m' inRest => noReverse m' (List.mem_cons_of_mem _ inRest)]

-- Under the protocol assumption, the markets process_ws_event keeps behave as the map.
theorem markets_keyed_by_pair (w : World) (empty : w.data.markets = []) (events : List MarketEvent)
    (fresh : Fresh (fun _ => none) events) :
    let markets := ((events.map MarketEvent.wrapped).foldl processWsEvent w).data.markets
    (markets.map (·.assetPair)).Nodup ∧ (∀ pair, markets.find? (·.assetPair = pair) = keyed events pair) ∧
    ∀ send recv, (∀ m ∈ markets, m.assetPair ≠ ⟨recv,send⟩) → findMarket markets send recv = keyed events ⟨send,recv⟩ := by
  have agrees := agrees_run events w.data _ (empty ▸ agrees_empty) fresh
  rw [← processWsEvents_market] at agrees
  exact ⟨agrees.unique,agrees.lookup,fun send recv noReverse =>
    (findMarket_eq_find? _ send recv noReverse).trans (agrees.lookup _)⟩

theorem markets_keyed_by_pair_after_relisting :
    let events := [MarketEvent.listed [⟨⟨1,2⟩,.base,""⟩,⟨⟨3,2⟩,.base,""⟩],.removed ⟨1,2⟩,.added ⟨⟨1,2⟩,.quote,""⟩]
    let markets := ((events.map MarketEvent.wrapped).foldl processWsEvent (World.start Db.empty)).data.markets
    (World.start Db.empty).data.markets = [] ∧ Fresh (fun _ => none) events ∧
    (markets.map (·.assetPair)).Nodup ∧ (∀ pair, markets.find? (·.assetPair = pair) = keyed events pair) ∧
    ∀ send recv, (∀ m ∈ markets, m.assetPair ≠ ⟨recv,send⟩) → findMarket markets send recv = keyed events ⟨send,recv⟩ :=
  have fresh : Fresh (fun _ => none)
      [.listed [⟨⟨1,2⟩,.base,""⟩,⟨⟨3,2⟩,.base,""⟩],.removed ⟨1,2⟩,.added ⟨⟨1,2⟩,.quote,""⟩] :=
    ⟨by decide,by decide,trivial⟩
  ⟨rfl,fresh,markets_keyed_by_pair _ rfl _ fresh⟩

-- A re-announced pair appends behind the first entry, which the search keeps returning.
theorem re_announced_market_stays_behind :
    let first : MarketInfo := ⟨⟨1,2⟩,.base,""⟩
    let second : MarketInfo := ⟨⟨1,2⟩,.quote,""⟩
    let events := [MarketEvent.added first,.added second]
    let markets := ((events.map MarketEvent.wrapped).foldl processWsEvent (World.start Db.empty)).data.markets
    markets = [first,second] ∧ ¬ (markets.map (·.assetPair)).Nodup ∧
      findMarket markets 1 2 = some first ∧ keyed events ⟨1,2⟩ = some second :=
  ⟨rfl,by decide,rfl,rfl⟩

end SideswapManager.Markets
