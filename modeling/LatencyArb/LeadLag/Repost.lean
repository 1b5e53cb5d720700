import LatencyArb.LeadLag.Executor

/-!
# The second attempt of an order

`fxcm_post` says whether an order may be posted again. The loop of `execute` only sleeps by it, and posts
again whenever the first attempt was not ok.
-/

namespace LatencyArb

open Numeral

namespace LeadLag

def Event.result? : Event → Option PostResult
  | .post _ result => some result
  | _ => none

/-- The results of the posts made, in order. -/
def posts (events : List Event) : List PostResult := events.filterMap Event.result?

section

variable (parse : List UInt8 → Option Json) (dump : Json → List UInt8) (cfg : Config)

/-- The broker says in a readable body that it did not execute the order. -/
def notExecuted (body : List UInt8) : Bool :=
  match parse body with
  | none => false
  | some j =>
    match j.value some "response" .null with
    | none => false
    | some resp => resp.value Json.getBool "executed" false == some false

/-- A 2xx rejection, or a 4xx status other than 429. -/
def refused : Exchange → Bool
  | .failed _ => false
  | .answered status body =>
    (decide (200 ≤ status ∧ status < 300) && notExecuted parse body) ||
      decide (400 ≤ status ∧ status < 500 ∧ status ≠ 429)

/-- An answer that is no success and that a second attempt cannot change. -/
def settled : Exchange → Bool
  | .failed _ => false
  | .answered status body =>
    if 200 ≤ status ∧ status < 300 then notExecuted parse body
    else decide (status < 500 ∧ status ≠ 429)

variable {parse dump cfg}

lemma settled_of_refused {x : Exchange} (h : refused parse x = true) : settled parse x = true := by
  cases x with
  | failed what => exact h
  | answered status body =>
    simp only [refused, Bool.or_eq_true, Bool.and_eq_true, decide_eq_true_eq] at h
    simp only [settled]
    rcases h with ⟨hstatus, hbody⟩ | hstatus
    · rw [if_pos hstatus]
      exact hbody
    · rw [if_neg (by omega)]
      exact decide_eq_true ⟨hstatus.2.1, hstatus.2.2⟩

/-! ## The classification -/

variable (dump) in
lemma readOrderId_ok (j : Json) (r : PostResult) :
    (readOrderId dump j r).ok = r.ok ∧ (readOrderId dump j r).retryable = r.retryable := by
  unfold readOrderId
  split
  · exact ⟨rfl, rfl⟩
  · split <;> exact ⟨rfl, rfl⟩

/-- The body only turns a success into a failure that is not retried. -/
lemma readBody_ok (body : List UInt8) (r : PostResult) :
    (readBody parse dump body r).ok = (r.ok && !notExecuted parse body) ∧
      (readBody parse dump body r).retryable = (r.retryable && !(r.ok && notExecuted parse body)) := by
  unfold readBody notExecuted
  cases parse body with
  | none => simp
  | some j =>
    dsimp only
    cases j.value some "response" .null with
    | none => simp
    | some resp =>
      dsimp only
      cases hok : r.ok with
      | false =>
        have hread := readOrderId_ok dump j r
        simp [hread, hok]
      | true =>
        rw [if_pos rfl]
        cases resp.value Json.getBool "executed" false with
        | none => simp [hok]
        | some executed =>
          cases executed with
          | true =>
            have hread := readOrderId_ok dump j r
            simp [hread, hok]
          | false => simp [readOrderId_ok]

variable (dump) in
/-- The results that are neither ok nor retryable are those of the settled answers. -/
theorem fxcmPost_settled (x : Exchange) :
    ((fxcmPost parse dump x).ok = false ∧ (fxcmPost parse dump x).retryable = false) ↔
      settled parse x = true := by
  cases x with
  | failed what => simp [fxcmPost, settled]
  | answered status body =>
    unfold fxcmPost settled
    simp only [readBody_ok]
    by_cases hstatus : 200 ≤ status ∧ status < 300
    · have hretry : ¬(500 ≤ status ∨ status = 429) := by omega
      simp [hstatus, hretry]
    · simp only [decide_eq_false hstatus, if_neg hstatus, Bool.false_and, Bool.not_false, Bool.and_true,
        true_and, decide_eq_false_iff_not, decide_eq_true_eq]
      omega

/-! ## The loop -/

lemma posts_append (events events' : List Event) : posts (events ++ events') = posts events ++ posts events' :=
  List.filterMap_append

/-- Each round posts once. -/
lemma posts_post (o : Order) (x : Exchange) :
    posts (o.post parse dump cfg x).events = posts o.events ++ [fxcmPost parse dump x] := by
  unfold Order.post
  dsimp only
  split
  · rw [posts_append]
    rfl
  · dsimp only
    rw [posts_append, posts_append]
    split <;> simp [posts, Event.result?]

variable (parse dump cfg) in
/-- The loop ends with a success or the last attempt. -/
lemma post_open (o : Order) (x : Exchange) (hplaced : o.placed = false) :
    (o.post parse dump cfg x).open? =
      (!(fxcmPost parse dump x).ok && decide (o.attempt < kMaxAttempts)) := by
  unfold Order.post Order.open?
  cases hok : (fxcmPost parse dump x).ok with
  | true => simp [hok]
  | false => simp [hok, hplaced]

lemma post_attempt (o : Order) (x : Exchange) (h : (fxcmPost parse dump x).ok = false) :
    (o.post parse dump cfg x).attempt = o.attempt + 1 := by
  unfold Order.post
  simp [h]

lemma run_open (answers : Nat → Exchange) {o : Order} (h : o.open? = true) (fuel : Nat) :
    Loop.run (Order.postNext parse dump cfg answers) (fuel + 1) o =
      Loop.run (Order.postNext parse dump cfg answers) fuel (o.post parse dump cfg (answers o.attempt)) := by
  rw [Loop.run, Order.postNext, if_pos h]

lemma run_closed (answers : Nat → Exchange) {o : Order} (h : o.open? = false) (fuel : Nat) :
    Loop.run (Order.postNext parse dump cfg answers) fuel o = o := by
  cases fuel with
  | zero => rfl
  | succ fuel =>
    rw [Loop.run, Order.postNext, h]
    rfl

lemma postNext_eq_none {answers : Nat → Exchange} {o : Order} :
    Order.postNext parse dump cfg answers o = none ↔ o.open? = false := by
  unfold Order.postNext
  split
  · simp_all
  · simp_all

/-- The attempts that are left. -/
def Order.left (o : Order) : Nat := if o.open? then kMaxAttempts + 1 - o.attempt else 0

variable (parse dump cfg) in
lemma left_post (o : Order) (x : Exchange) (h : o.open? = true) :
    (o.post parse dump cfg x).left < o.left := by
  have hopened : o.placed = false ∧ o.attempt ≤ kMaxAttempts := by
    simpa [Order.open?] using h
  unfold Order.left
  rw [if_pos h, post_open parse dump cfg o _ hopened.1]
  cases hok : (fxcmPost parse dump x).ok with
  | true =>
    simp only [Bool.not_true, Bool.false_and, Bool.false_eq_true, if_false]
    omega
  | false =>
    rw [post_attempt _ _ hok]
    split <;> omega

/-- The fuel of the loop is enough. -/
theorem loop_ends (s : Signal) (answers : Nat → Exchange) :
    Order.postNext parse dump cfg answers
      (Loop.run (Order.postNext parse dump cfg answers) kMaxAttempts { signal := s }) = none := by
  apply Loop.run_terminates Order.left
  · intro o t ht
    unfold Order.postNext at ht
    split at ht
    · rename_i hopen
      obtain rfl := Option.some.inj ht
      exact left_post parse dump cfg o _ hopen
    · cases ht
  · exact le_of_eq rfl

/-- The first attempt alone where it is ok, else both. -/
theorem posts_execute {openPositions : Int} (h : skips cfg openPositions = false) (s : Signal)
    (answers : Nat → Exchange) :
    posts (execute parse dump cfg openPositions s answers) =
      if (fxcmPost parse dump (answers 1)).ok then [fxcmPost parse dump (answers 1)]
      else [fxcmPost parse dump (answers 1), fxcmPost parse dump (answers 2)] := by
  have htrade : ∀ row, posts [.trade row] = [] := fun row => rfl
  have hopen := post_open parse dump cfg { signal := s } (answers 1) rfl
  have hstart : posts ({ signal := s } : Order).events = [] := rfl
  unfold execute
  rw [h, if_neg Bool.false_ne_true]
  simp only [posts_append, htrade, List.append_nil]
  rw [show kMaxAttempts = 1 + 1 from rfl, run_open answers rfl]
  cases hok : (fxcmPost parse dump (answers 1)).ok with
  | true =>
    rw [hok] at hopen
    rw [run_closed answers hopen, posts_post, hstart]
    rfl
  | false =>
    rw [hok] at hopen
    rw [run_open answers hopen, Loop.run, posts_post, posts_post, post_attempt _ _ hok, hstart]
    rfl

/-! ## What the second attempt goes by -/

/-- A second post follows a first one that was not ok and retryable, and nothing else; an order that the
broker refused is posted once. -/
def RepostsRetryable (parse : List UInt8 → Option Json) (firstAnswer : Exchange) (events : List Event) : Prop :=
  (1 < (posts events).length ↔
    ∃ first ∈ (posts events).head?, first.ok = false ∧ first.retryable = true) ∧
  (posts events ≠ [] → refused parse firstAnswer = true → (posts events).length = 1)

/-- An order is posted again only where it may be, exactly when it is not posted at all or its first answer
is not settled. -/
theorem reposts_retryable_iff (parse : List UInt8 → Option Json) (dump : Json → List UInt8) (cfg : Config)
    (openPositions : Int) (s : Signal) (answers : Nat → Exchange) :
    RepostsRetryable parse (answers 1) (execute parse dump cfg openPositions s answers) ↔
      skips cfg openPositions = true ∨ settled parse (answers 1) = false := by
  unfold RepostsRetryable
  cases hskips : skips cfg openPositions with
  | true => simp [execute, hskips, posts]
  | false =>
    have hsettled : ((fxcmPost parse dump (answers 1)).ok = false ∧
        (fxcmPost parse dump (answers 1)).retryable = false) ↔ settled parse (answers 1) = true :=
      fxcmPost_settled dump (answers 1)
    rw [posts_execute hskips]
    cases hok : (fxcmPost parse dump (answers 1)).ok with
    | true =>
      have hnot : settled parse (answers 1) = false := by
        rw [← Bool.not_eq_true, ← hsettled, hok]
        simp
      simp [hok, hnot]
    | false =>
      rw [hok] at hsettled
      cases hretryable : (fxcmPost parse dump (answers 1)).retryable with
      | true =>
        have hnot : settled parse (answers 1) = false := by
          rw [← Bool.not_eq_true, ← hsettled, hretryable]
          simp
        have hrefused : refused parse (answers 1) = false := by
          by_contra h
          rw [settled_of_refused (Bool.eq_true_of_not_eq_false h)] at hnot
          cases hnot
        simp [hok, hretryable, hnot, hrefused]
      | false =>
        have hyes : settled parse (answers 1) = true := hsettled.mp ⟨rfl, hretryable⟩
        simp [hok, hretryable, hyes]

/-- The body of an answer that says whether the order was executed. -/
def reply (executed : Bool) : List UInt8 :=
  bytesOf ("\x7b\"response\":\x7b\"executed\":" ++ (if executed then "true" else "false") ++ "\x7d\x7d")

/-- Reads these bodies. -/
def parseReply (body : List UInt8) : Option Json :=
  let json := fun executed =>
    Json.object [(bytesOf "response", .object [(bytesOf "executed", .bool executed)])]
  if body = reply true then some (json true)
  else if body = reply false then some (json false)
  else none

def buySignal : Signal := ⟨bytesOf "buy", bytesOf "momentum", 64000, 1 / 10⟩

/-- An order that the broker refuses, with a rejection or with 400, is posted twice. -/
theorem refused_order_reposted :
    (posts (execute parseReply (fun _ => []) { dryRun := false } 0 buySignal
      (fun _ => .answered 200 (reply false)))).length = 2 ∧
    refused parseReply (.answered 200 (reply false)) = true ∧
    (posts (execute parseReply (fun _ => []) { dryRun := false } 0 buySignal
      (fun _ => .answered 400 []))).length = 2 ∧
    refused parseReply (.answered 400 []) = true ∧
    ¬RepostsRetryable parseReply (.answered 400 [])
      (execute parseReply (fun _ => []) { dryRun := false } 0 buySignal (fun _ => .answered 400 [])) := by
  have hposts : (posts (execute parseReply (fun _ => []) { dryRun := false } 0 buySignal
      (fun _ => .answered 400 []))).length = 2 := by decide +kernel
  have hrefused : refused parseReply (.answered 400 []) = true := by decide +kernel
  refine ⟨by decide +kernel, by decide +kernel, hposts, hrefused, ?_⟩
  rintro ⟨-, honce⟩
  have hone := honce (List.ne_nil_of_length_pos (by omega)) hrefused
  omega

end

end LeadLag

end LatencyArb
