import LatencyArb.CTrader.Results

/-!
# Which instrument an order is for

`connect` resolves the configured symbol, and every order is built with what it found. Against a
server that answers from one book of symbols, an order is therefore for its own job's symbol exactly
where the book gives that symbol and the configured one the same id.
-/

namespace LatencyArb

namespace CTrader

/-- The server's symbol list and what it knows of each id. -/
structure SymbolBook where
  symbols : List (String × Int)
  details : Int → List SymbolDetails

namespace SymbolBook

variable (book : SymbolBook)

/-- What the list gives for the normalized name. -/
def info (name : String) : Option SymbolInfo :=
  if findSymbol name book.symbols = 0 then none
  else ((book.details (findSymbol name book.symbols)).head?).map
    (symbolInfo (findSymbol name book.symbols))

lemma info_symbolId {name : String} {info : SymbolInfo} (h : book.info name = some info) :
    info.symbolId = findSymbol name book.symbols ∧ info.symbolId ≠ 0 ∧ info.valid = true := by
  unfold SymbolBook.info at h
  split at h
  · cases h
  · rename_i hid
    obtain ⟨sp, -, rfl⟩ := Option.map_eq_some_iff.mp h
    exact ⟨rfl, hid, rfl⟩

lemma info_congr {name name' : String}
    (h : findSymbol name book.symbols = findSymbol name' book.symbols) :
    book.info name = book.info name' := by
  simp only [info, h]

/-- The order is the one the job asks for, by the id, lot size and pip position of the list. -/
def OrderFor (job : OrderJob) (order : NewOrderReq) (name : String) : Prop :=
  ∃ info nextId, book.info name = some info ∧ order = buildOrder job info nextId

lemma OrderFor.symbolId {job : OrderJob} {order : NewOrderReq} {name : String}
    (h : book.OrderFor job order name) : order.symbolId = findSymbol name book.symbols := by
  obtain ⟨info, nextId, hinfo, rfl⟩ := h
  exact (book.info_symbolId hinfo).1

theorem orderFor_iff {job : OrderJob} {order : NewOrderReq} {name name' : String}
    (h : book.OrderFor job order name') :
    book.OrderFor job order name ↔ findSymbol name book.symbols = findSymbol name' book.symbols := by
  constructor
  · intro hname
    rw [← hname.symbolId, ← h.symbolId]
  · intro hid
    obtain ⟨info, nextId, hinfo, horder⟩ := h
    exact ⟨info, nextId, (book.info_congr hid).trans hinfo, horder⟩

end SymbolBook

end CTrader

open CTrader

namespace CTraderExecutor

variable {cfg : Config} {book : SymbolBook}

/-- The server answers the two symbol requests from its book. -/
def answersFrom (book : SymbolBook) (e : CTraderExecutor) (a : Action) : Bool :=
  match e.stage, a with
  | .exchange _ (.symbolsList _) true, .read (.frame frame) =>
    decide (frame.type = Payload.symbolsListRes → frame.content = .symbolsList book.symbols)
  | .exchange _ (.symbolById _ id) true, .read (.frame frame) =>
    decide (frame.type = Payload.symbolByIdRes → frame.content = .symbolById (book.details id))
  | _, _ => true

/-- `syminfo` is what the book gives for the configured symbol. -/
def Resolved (cfg : Config) (book : SymbolBook) (syminfo : SymbolInfo) : Prop :=
  book.info (configuredSymbol cfg) = some syminfo

/-- What a request of the worker says about the symbols. -/
def RequestFits (cfg : Config) (book : SymbolBook) (syminfo : SymbolInfo) (task : Task) :
    Request → Prop
  | .applicationAuth => True
  | .accountAuth => True
  | .symbolsList purpose => purpose = .connect
  | .symbolById purpose id =>
    purpose = .connect ∧ id ≠ 0 ∧ id = findSymbol (configuredSymbol cfg) book.symbols
  | .subscribeSpots => Resolved cfg book syminfo
  | .newOrder order _ =>
    Resolved cfg book syminfo ∧ book.OrderFor task.job order (configuredSymbol cfg)

/-- Where the worker has a connection, the configured symbol is resolved from its snapshot on. -/
def StageFits (cfg : Config) (book : SymbolBook) (e : CTraderExecutor) : Prop :=
  match e.stage with
  | .tls _ => True
  | .exchange task request _ => RequestFits cfg book e.syminfo task request
  | .snapshot _ => Resolved cfg book e.syminfo
  | .unstarted => (e.connected && e.stream) = true → Resolved cfg book e.syminfo
  | .idle => (e.connected && e.stream) = true → Resolved cfg book e.syminfo
  | .finished => (e.connected && e.stream) = true → Resolved cfg book e.syminfo

def SentFit (cfg : Config) (book : SymbolBook) (e : CTraderExecutor) : Prop :=
  ∀ o ∈ e.sent, book.OrderFor o.job o.order (configuredSymbol cfg)

structure InstrumentInv (cfg : Config) (book : SymbolBook) (e : CTraderExecutor) : Prop where
  stage : e.StageFits cfg book
  sent : e.SentFit cfg book

section Fits

variable {e : CTraderExecutor} {task : Task} (hsent : e.SentFit cfg book)

include hsent

lemma report_fits (hres : Resolved cfg book e.syminfo) (o : Outcome) :
    (e.report o).InstrumentInv cfg book :=
  ⟨fun _ => hres, hsent⟩

lemma disconnect_report_fits (o : Outcome) : (e.disconnect.report o).InstrumentInv cfg book := by
  refine ⟨?_, hsent⟩
  intro hconn
  simp [report, disconnect] at hconn

lemma attemptDone_fits (hres : Resolved cfg book e.syminfo) (o : Outcome) :
    (e.attemptDone task o).InstrumentInv cfg book := by
  unfold attemptDone
  split
  · exact report_fits hsent hres o
  · split
    · exact ⟨trivial, hsent⟩
    · exact report_fits hsent hres o

lemma connectFailed_fits : (e.connectFailed task).InstrumentInv cfg book := by
  unfold connectFailed
  split
  · refine ⟨?_, hsent⟩
    intro hconn
    simp [disconnect] at hconn
  · exact disconnect_report_fits hsent _

lemma fail_fits {request : Request} (hfits : RequestFits cfg book e.syminfo task request)
    (error : String) : (e.fail task error request).InstrumentInv cfg book := by
  unfold fail
  split
  · exact attemptDone_fits hsent hfits.1 _
  · cases hfits
  · cases hfits.1
  · exact connectFailed_fits hsent

lemma askOrder_fits (hres : Resolved cfg book e.syminfo) :
    (e.askOrder task e.syminfo).InstrumentInv cfg book := by
  refine ⟨⟨hres, ?_⟩, hsent⟩
  exact ⟨e.syminfo, e.nextId + 1, hres, rfl⟩

lemma placeOrder_fits (hres : Resolved cfg book e.syminfo) :
    (e.placeOrder task).InstrumentInv cfg book := by
  obtain ⟨-, hid, hvalid⟩ := book.info_symbolId hres
  have hcached : ¬(!e.syminfo.valid || e.syminfo.symbolId == 0) = true := by simp [hvalid, hid]
  unfold placeOrder
  rw [if_neg hcached]
  exact askOrder_fits hsent hres

lemma accept_fits {request : Request} {frame : Frame}
    (hstage : e.stage = .exchange task request true) (htype : frame.type = request.expect)
    (hfits : RequestFits cfg book e.syminfo task request)
    (hanswer : e.answersFrom book (.read (.frame frame)) = true) :
    (e.accept cfg task request frame).InstrumentInv cfg book := by
  unfold accept
  by_cases hraw : frame.raw = ""
  · rw [if_pos hraw]
    exact fail_fits hsent hfits _
  rw [if_neg hraw]
  split
  · exact ⟨trivial, hsent⟩
  · exact ⟨rfl, hsent⟩
  · rename_i purpose symbols hcontent
    cases hfits
    simp only [answersFrom, hstage, htype, hcontent, Request.expect, Content.symbolsList.injEq,
      forall_const, decide_eq_true_eq] at hanswer
    subst hanswer
    dsimp only
    split
    · exact connectFailed_fits hsent
    · rename_i hid
      exact ⟨⟨rfl, hid, rfl⟩, hsent⟩
  · exact fail_fits hsent hfits _
  · rename_i purpose id sp rest hcontent
    obtain ⟨rfl, hid, rfl⟩ := hfits
    simp only [answersFrom, hstage, htype, hcontent, Request.expect, Content.symbolById.injEq,
      forall_const, decide_eq_true_eq] at hanswer
    refine ⟨?_, hsent⟩
    show Resolved cfg book (symbolInfo (findSymbol (configuredSymbol cfg) book.symbols) sp)
    unfold Resolved SymbolBook.info
    rw [if_neg hid, ← hanswer]
    rfl
  · exact fail_fits hsent hfits _
  · exact fail_fits hsent hfits _
  · exact ⟨hfits, hsent⟩
  · exact attemptDone_fits hsent hfits.1 _
  · exact attemptDone_fits hsent hfits.1 _

lemma onFrame_fits {request : Request} {frame : Frame}
    (hstage : e.stage = .exchange task request true)
    (hfits : RequestFits cfg book e.syminfo task request)
    (hanswer : e.answersFrom book (.read (.frame frame)) = true) :
    (e.onFrame cfg task request frame).InstrumentInv cfg book := by
  unfold onFrame
  split
  · rename_i htype
    exact accept_fits hsent hstage htype hfits hanswer
  · obtain ⟨bid, ask, hquote⟩ := e.dispatchOther_quote frame
    split
    · rename_i e₁ error heq
      rw [heq] at hquote
      dsimp only at hquote
      have hsent₁ : e₁.SentFit cfg book := hquote ▸ hsent
      have hfits₁ : RequestFits cfg book e₁.syminfo task request := hquote ▸ hfits
      exact fail_fits hsent₁ hfits₁ _
    · rename_i e₁ heq
      rw [heq] at hquote
      dsimp only at hquote
      subst hquote
      refine ⟨?_, hsent⟩
      unfold StageFits
      rw [hstage]
      exact hfits

lemma onSnapshot_fits (hstage : e.stage = .snapshot task) (hres : Resolved cfg book e.syminfo)
    (frame : Frame) : (e.onSnapshot task frame).InstrumentInv cfg book := by
  have hsame : e.InstrumentInv cfg book := by
    refine ⟨?_, hsent⟩
    unfold StageFits
    rw [hstage]
    exact hres
  unfold onSnapshot
  split
  · rename_i symbolId bid ask hcontent
    split
    · have hstored : (e.storeSpot bid ask).SentFit cfg book := hsent
      exact placeOrder_fits hstored hres
    · exact hsame
  · exact hsame

lemma take_fits (hstage : e.stage = .idle) (hfits : e.StageFits cfg book) :
    e.take.InstrumentInv cfg book := by
  have hres : (e.connected && e.stream) = true → Resolved cfg book e.syminfo := by
    unfold StageFits at hfits
    rw [hstage] at hfits
    exact hfits
  unfold take
  split
  · exact ⟨hres, hsent⟩
  · split
    · exact ⟨hfits, hsent⟩
    · rename_i job jobs hjobs
      dsimp only
      split
      · rename_i hconn
        have htaken : ({ e with jobs := jobs } : CTraderExecutor).SentFit cfg book := hsent
        exact placeOrder_fits htaken (hres hconn)
      · exact ⟨trivial, hsent⟩

lemma sendRequest_fits {request : Request} (hfits : RequestFits cfg book e.syminfo task request) :
    (e.sendRequest task request).InstrumentInv cfg book := by
  unfold sendRequest
  split
  · rename_i order info
    refine ⟨hfits, ?_⟩
    intro o ho
    rcases List.mem_append.mp ho with hold | hnew
    · exact hsent o hold
    · rw [List.mem_singleton.mp hnew]
      exact hfits.2
  · exact ⟨hfits, hsent⟩

end Fits

theorem step_fits {e e' : CTraderExecutor} {a : Action} (hI : e.InstrumentInv cfg book)
    (hanswer : e.answersFrom book a = true) (hs : e.step cfg a = some e') :
    e'.InstrumentInv cfg book := by
  have hstage := hI.stage
  unfold StageFits at hstage
  cases step_moves hs with
  | start =>
    unfold start
    split
    · rename_i heq
      rw [heq] at hstage
      exact ⟨hstage, hI.sent⟩
    · exact hI
  | execute job =>
    unfold execute
    split
    · exact hI
    · exact ⟨hI.stage, hI.sent⟩
  | stop => exact ⟨hI.stage, hI.sent⟩
  | take stage => exact take_fits hI.sent stage hI.stage
  | tlsUp task stage => exact ⟨trivial, hI.sent⟩
  | tlsFailed task stage => exact connectFailed_fits hI.sent
  | send task request stage =>
    rw [stage] at hstage
    exact sendRequest_fits hI.sent hstage
  | sendFailed task request stage =>
    rw [stage] at hstage
    exact fail_fits hI.sent hstage _
  | readFailed task request stage =>
    rw [stage] at hstage
    exact fail_fits hI.sent hstage _
  | readFrame task request frame stage =>
    rw [stage] at hstage
    exact onFrame_fits hI.sent stage hstage hanswer
  | undecodable => exact hI
  | snapshotFailed task stage => exact connectFailed_fits hI.sent
  | snapshotFrame task frame stage =>
    rw [stage] at hstage
    exact onSnapshot_fits hI.sent stage hstage frame
  | timeout task stage => exact connectFailed_fits hI.sent
  | close stage =>
    obtain ⟨hsent, -, hkept⟩ := e.closeStream_keeps
    refine ⟨?_, by unfold SentFit; rw [hsent]; exact hI.sent⟩
    unfold StageFits
    simp [hkept, stage, e.closeStream_closed]
  | join stage =>
    obtain ⟨hsent, -, -⟩ := e.closeStream_keeps
    refine ⟨?_, by unfold SentFit; dsimp only; rw [hsent]; exact hI.sent⟩
    unfold StageFits
    simp [e.closeStream_closed]

theorem reachable_fits {run : List Action} {e : CTraderExecutor}
    (hbook : (machine cfg).Always run (fun e a _ => e.answersFrom book a = true))
    (hrun : (machine cfg).run (machine cfg).init run = some e) : e.InstrumentInv cfg book := by
  have h0 : (machine cfg).init.InstrumentInv cfg book := by
    refine ⟨?_, ?_⟩
    · simp [machine, StageFits]
    · simp [machine, SentFit]
  apply (machine cfg).invariant_of_always h0 _ hbook hrun
  intro s a t _ hI hs hanswer
  exact step_fits hI hanswer hs

/-- The orders sent are for the symbols of their jobs exactly if the list gives these symbols the
id of the configured one. -/
theorem orders_for_own_symbol_iff (cfg : Config) (book : SymbolBook) (run : List Action)
    (e : CTraderExecutor)
    (hbook : (machine cfg).Always run (fun e a _ => e.answersFrom book a = true))
    (hrun : (machine cfg).run (machine cfg).init run = some e) :
    (∀ o ∈ e.sent, book.OrderFor o.job o.order o.job.symbol) ↔
      ∀ o ∈ e.sent, findSymbol o.job.symbol book.symbols =
        findSymbol (configuredSymbol cfg) book.symbols := by
  have hsent := (reachable_fits hbook hrun).sent
  constructor
  · intro h o ho
    exact (book.orderFor_iff (hsent o ho)).mp (h o ho)
  · intro h o ho
    exact (book.orderFor_iff (hsent o ho)).mpr (h o ho)

def goldAndBitcoin : SymbolBook where
  symbols := [("XAUUSD", 41), ("BTCUSD", 22)]
  details := fun id => if id = 41 then [⟨2, 1, 10000⟩] else if id = 22 then [⟨2, 2, 100⟩] else []

/-- One job for the symbol, up to its order request. -/
def oneOrder (symbol : String) : List Action :=
  [Action.start, .execute ⟨symbol, "buy", 1, 20, 40⟩, .take] ++
    connecting goldAndBitcoin.symbols 41 ⟨2, 1, 10000⟩ ++ [Action.send true]

theorem orders_for_own_symbol_gold :
    ∃ e, (machine {}).run (machine {}).init (oneOrder "xau usd") = some e ∧
      e.sent.map (fun o => o.order.symbolId) = [41] ∧
      ∀ o ∈ e.sent, goldAndBitcoin.OrderFor o.job o.order o.job.symbol := by
  have hids : ((machine {}).run (machine {}).init (oneOrder "xau usd")).map
      (fun e => e.sent.map (fun o => o.order.symbolId)) = some [41] := by decide +kernel
  have hnames : ((machine {}).run (machine {}).init (oneOrder "xau usd")).map
      (fun e => e.sent.all (fun o => decide (findSymbol o.job.symbol goldAndBitcoin.symbols =
        findSymbol (configuredSymbol {}) goldAndBitcoin.symbols))) = some true := by decide +kernel
  obtain ⟨e, hrun, hsent⟩ := Option.map_eq_some_iff.mp hids
  rw [hrun, Option.map_some, Option.some.injEq, List.all_eq_true] at hnames
  refine ⟨e, hrun, hsent, ?_⟩
  apply (orders_for_own_symbol_iff {} goldAndBitcoin _ e
    ((machine {}).always_of_checks (by decide +kernel)) hrun).mpr
  intro o ho
  exact of_decide_eq_true (hnames o ho)

/-- With the configured symbol resolved, an order for bitcoin is sent for gold. -/
theorem bitcoin_order_is_for_gold :
    (machine {}).Always (oneOrder "BTC/USD") (fun e a _ => e.answersFrom goldAndBitcoin a = true) ∧
    ∃ e, (machine {}).run (machine {}).init (oneOrder "BTC/USD") = some e ∧
      e.sent.map (fun o => (o.job.symbol, o.order.symbolId)) = [("BTC/USD", 41)] ∧
      ¬∀ o ∈ e.sent, goldAndBitcoin.OrderFor o.job o.order o.job.symbol := by
  refine ⟨(machine {}).always_of_checks (by decide +kernel), ?_⟩
  have hids : ((machine {}).run (machine {}).init (oneOrder "BTC/USD")).map
      (fun e => e.sent.map (fun o => (o.job.symbol, o.order.symbolId))) =
        some [("BTC/USD", 41)] := by decide +kernel
  obtain ⟨e, hrun, hsent⟩ := Option.map_eq_some_iff.mp hids
  refine ⟨e, hrun, hsent, ?_⟩
  intro h
  have hmem : ("BTC/USD", (41 : Int)) ∈ e.sent.map (fun o => (o.job.symbol, o.order.symbolId)) := by
    rw [hsent]
    exact List.mem_singleton.mpr rfl
  obtain ⟨o, ho, heq⟩ := List.mem_map.mp hmem
  simp only [Prod.mk.injEq] at heq
  obtain ⟨hsymbol, hid⟩ := heq
  have hown := (h o ho).symbolId
  rw [hsymbol, hid] at hown
  exact absurd hown (by decide +kernel)

end CTraderExecutor

end LatencyArb
