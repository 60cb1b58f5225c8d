import Mathlib.Order.Bounds.Basic
import PageMacro.Proofs.ResponseCache

/-!
# A request is tried until an answer is conclusive

A request may be tried several times, and it matters which of the outcomes counts. It should be the
first conclusive one, or the last one if the attempts are used up before; nothing that came earlier
should show in the answer. It is so unless an attempt is interrupted (`Client.CutShort`): whether the
request was cancelled or only the time of this one attempt was up is not asked, so that no further
attempt is made in either case.

A network answers by its own state, so the outcomes of one request made over and over are a sequence
(`Network.outcome`). `Settles` says at which place of such a sequence the attempts stop, and
`tryFrom_of_settles` what they have done by then.

The attempts are written as a recursion that has nothing left to say when they are used up. A loop
has: it could be left at its end, with the fault of the attempt before. `rounds` is that loop, with
a list of the turns it takes, and `rounds_of_settles` says that it is always left at an attempt.
-/

namespace PageMacro

namespace Fetch

variable {σ : Type}

/-! ## The outcomes of one request -/

namespace Network

/-- The state of the network after a request has been made `n` times. -/
def after (network : Network σ) (r : Sent) (state : σ) : Nat → σ
  | 0 => state
  | n + 1 => (network r (after network r state n)).2

/-- The outcomes of a request that is made over and over. -/
def outcome (network : Network σ) (r : Sent) (state : σ) (n : Nat) : Outcome :=
  (network r (network.after r state n)).1

variable (network : Network σ) (r : Sent) (state : σ)

theorem after_next (n : Nat) :
    network.after r (network r state).2 n = network.after r state (n + 1) := by
  induction n with
  | zero => rfl
  | succ n ih => rw [after, ih]; rfl

theorem outcome_next (n : Nat) :
    network.outcome r (network r state).2 n = network.outcome r state (n + 1) := by
  unfold outcome
  rw [after_next]

/-- What has been sent is the request, as often as it has been made. -/
theorem after_noting (sent : List Sent) (n : Nat) :
    (noting network).after r (state, sent) n =
      (network.after r state n, sent ++ List.replicate n r) := by
  induction n with
  | zero => simp [after]
  | succ n ih =>
      rw [after, ih, List.replicate_succ', ← List.append_assoc]
      rfl

/-- The network that answers by a list of outcomes, one after the other. -/
def inTurn (outcomes : Nat → Outcome) : Network Nat := fun _ n => (outcomes n, n + 1)

theorem after_inTurn (outcomes : Nat → Outcome) (r : Sent) (n : Nat) :
    (inTurn outcomes).after r 0 n = n := by
  induction n with
  | zero => rfl
  | succ n ih => rw [after, ih]; rfl

/-- Every sequence of outcomes is one that a network can have. -/
theorem outcome_inTurn (outcomes : Nat → Outcome) (r : Sent) (n : Nat) :
    (inTurn outcomes).outcome r 0 n = outcomes n := by
  unfold outcome
  rw [after_inTurn]
  rfl

theorem outcome_noting (sent : List Sent) (n : Nat) :
    (noting network).outcome r (state, sent) n = network.outcome r state n := by
  unfold outcome
  rw [after_noting]
  rfl

end Network

/-- An answer that puts the blame neither on the server nor on its load. -/
def Conclusive (o : Outcome) : Prop := ∃ r, o = .answered r ∧ r.status < 500 ∧ r.status ≠ 429

theorem inconclusive_iff {o : Outcome} : inconclusive o = true ↔ ¬ Conclusive o := by
  cases o with
  | answered r =>
      simp only [inconclusive, Conclusive, Outcome.answered.injEq, exists_eq_left',
        Bool.or_eq_true, decide_eq_true_eq, beq_iff_eq]
      omega
  | failed => simp [inconclusive, Conclusive]
  | interrupted => simp [inconclusive, Conclusive]

/-- No further attempt is made after such an outcome. -/
def Final (o : Outcome) : Prop := Conclusive o ∨ o = .interrupted

theorem inconclusive_of_not_final {o : Outcome} (h : ¬ Final o) : inconclusive o = true :=
  inconclusive_iff.mpr fun hconclusive => h (.inl hconclusive)

theorem not_conclusive_interrupted : ¬ Conclusive .interrupted := by
  intro h
  obtain ⟨r, hr, -⟩ := h
  cases hr

/-- Of a sequence of outcomes, number `k` is where the attempts stop: at the first that is final, or
at number `more` if none is before. -/
structure Settles (more : Nat) (outcomes : Nat → Outcome) (k : Nat) : Prop where
  within : k ≤ more
  before : ∀ i, i < k → ¬ Final (outcomes i)
  last : k = more ∨ Final (outcomes k)

theorem exists_settles (more : Nat) (outcomes : Nat → Outcome) :
    ∃ k, Settles more outcomes k := by
  induction more generalizing outcomes with
  | zero => exact ⟨0, Nat.le_refl 0, fun i hi => absurd hi (Nat.not_lt_zero i), .inl rfl⟩
  | succ more ih =>
      by_cases hfirst : Final (outcomes 0)
      · exact ⟨0, Nat.zero_le _, fun i hi => absurd hi (Nat.not_lt_zero i), .inr hfirst⟩
      · obtain ⟨k, hk⟩ := ih fun i => outcomes (i + 1)
        refine ⟨k + 1, Nat.succ_le_succ hk.within, ?_, ?_⟩
        · intro i hi
          cases i with
          | zero => exact hfirst
          | succ i => exact hk.before i (Nat.lt_of_succ_lt_succ hi)
        · rcases hk.last with heq | hlast
          · exact .inl (by rw [heq])
          · exact .inr hlast

namespace Settles

variable {more k : Nat} {outcomes : Nat → Outcome}

/-- Counted from one, the place is the least of the limit and of the places of conclusive outcomes,
unless it is the place of an interruption before the limit. -/
theorem isLeast_iff (h : Settles more outcomes k) :
    IsLeast ({(more : Int) + 1} ∪ {n | ∃ i : Nat, n = i + 1 ∧ Conclusive (outcomes i)})
        ((k : Int) + 1) ↔
      ¬ (k < more ∧ outcomes k = .interrupted) := by
  constructor
  · intro hleast hcut
    rcases hleast.1 with hlimit | ⟨i, hi, hconclusive⟩
    · have heq : (k : Int) + 1 = more + 1 := hlimit
      omega
    · obtain rfl : i = k := by omega
      rw [hcut.2] at hconclusive
      exact not_conclusive_interrupted hconclusive
  · intro hwhole
    constructor
    · rcases h.last with rfl | hconclusive | hinterrupted
      · exact .inl rfl
      · exact .inr ⟨k, rfl, hconclusive⟩
      · have hle := h.within
        obtain rfl : k = more := by
          by_contra hne
          exact hwhole ⟨by omega, hinterrupted⟩
        exact .inl rfl
    · rintro n (rfl | ⟨i, rfl, hi⟩)
      · have hle := h.within
        omega
      · by_contra hlt
        exact h.before i (by omega) (.inl hi)

/-- The attempts stop at an interruption before the limit if there is one, and no conclusive outcome
before that. -/
theorem interrupted_iff (h : Settles more outcomes k) :
    k < more ∧ outcomes k = .interrupted ↔
      ∃ i, i < more ∧ outcomes i = .interrupted ∧ ∀ j, j < i → ¬ Conclusive (outcomes j) := by
  constructor
  · intro hcut
    exact ⟨k, hcut.1, hcut.2, fun j hj hconclusive => h.before j hj (.inl hconclusive)⟩
  · rintro ⟨i, hlt, hinterrupted, hbefore⟩
    have hle : k ≤ i := by
      by_contra hgt
      exact h.before i (by omega) (.inr hinterrupted)
    refine ⟨by omega, ?_⟩
    rcases Nat.lt_or_eq_of_le hle with hki | rfl
    · rcases h.last with rfl | hconclusive | hk
      · omega
      · exact absurd hconclusive (hbefore k hki)
      · exact hk
    · exact hinterrupted

theorem not_final_zero (h : Settles more outcomes (k + 1)) : ¬ Final (outcomes 0) :=
  h.before 0 (Nat.succ_pos k)

theorem next (h : Settles (more + 1) outcomes (k + 1)) :
    Settles more (fun i => outcomes (i + 1)) k where
  within := Nat.le_of_succ_le_succ h.within
  before := fun i hi => h.before (i + 1) (Nat.succ_lt_succ hi)
  last := h.last.imp Nat.succ.inj id

end Settles

/-! ## What the attempts do -/

section Attempts

variable (network : Network σ) (backoff : Nat → Duration) (method target : String) (r : Sent)

/-- The records of `k` further attempts, the first of them being attempt `number + 1`. -/
def retryRecords (number k : Nat) : List Record :=
  (List.range k).map fun i => retryRecord target (number + i + 1) (backoff (number - 1 + i))

theorem retryRecords_succ {number : Nat} (hnumber : 0 < number) (k : Nat) :
    retryRecords backoff target number (k + 1) =
      retryRecord target (number + 1) (backoff (number - 1)) ::
        retryRecords backoff target (number + 1) k := by
  unfold retryRecords
  rw [List.range_succ_eq_map, List.map_cons, List.map_map]
  refine congrArg (List.cons _) (List.map_congr_left fun i _ => ?_)
  have hattempt : number + (i + 1) + 1 = number + 1 + i + 1 := by omega
  have hwait : number - 1 + (i + 1) = number + 1 - 1 + i := by omega
  simp only [Function.comp, Nat.succ_eq_add_one, hattempt, hwait]

/-- What the last attempt gives, which has number `k` of at most `more`: what its outcome means, or
the interruption as it is if another attempt would have been made. -/
def lastWord (method target : String) (more k : Nat) (o : Outcome) : Except Error String :=
  if k < more ∧ o = .interrupted then .error .interrupted else conclude method target o

theorem lastWord_succ (more k : Nat) (o : Outcome) :
    lastWord method target (more + 1) (k + 1) o = lastWord method target more k o := by
  simp only [lastWord, Nat.add_lt_add_iff_right]

/-- **The attempts stop at the outcome to take**, and give what it means. -/
theorem tryFrom_of_settles {more k : Nat} {number : Nat} (hnumber : 0 < number) {desk : Desk σ}
    (h : Settles more (network.outcome r desk.network) k) :
    tryFrom network backoff method target r more number desk =
      (lastWord method target more k (network.outcome r desk.network k),
        { desk with
          network := network.after r desk.network (k + 1)
          log := desk.log ++ retryRecords backoff target number k }) := by
  induction more generalizing k number desk with
  | zero =>
      obtain rfl : k = 0 := Nat.le_zero.mp h.within
      simp [retryRecords, lastWord]
      rfl
  | succ more ih =>
      rw [tryFrom_succ]
      cases k with
      | zero =>
          rcases h.last.resolve_left (Nat.succ_ne_zero more).symm with hconclusive | hinterrupted
          · have hlast : ¬ inconclusive (network r desk.network).1 = true :=
              fun hagain => inconclusive_iff.mp hagain hconclusive
            have hwhole : network.outcome r desk.network 0 ≠ .interrupted := fun hcut =>
              not_conclusive_interrupted (hcut ▸ hconclusive)
            rw [if_neg hlast, lastWord, if_neg fun hcut => hwhole hcut.2]
            simp [retryRecords, Network.outcome, Network.after]
          · have hfirst : (network r desk.network).1 = .interrupted := hinterrupted
            rw [hinterrupted, hfirst]
            simp [inconclusive, lastWord, retryRecords, Network.after]
      | succ k =>
          have hagain : inconclusive (network r desk.network).1 = true :=
            inconclusive_of_not_final h.not_final_zero
          have hwhole : (network r desk.network).1 ≠ .interrupted := fun hcut =>
            h.not_final_zero (.inr hcut)
          have hrest := h.next
          simp only [← Network.outcome_next] at hrest
          rw [if_pos hagain, if_neg hwhole, ih (Nat.succ_pos number) hrest, lastWord_succ,
            retryRecords_succ backoff target hnumber]
          simp only [Desk.retrying, Network.outcome_next, Network.after_next, List.append_assoc,
            List.singleton_append]

end Attempts

/-! ## The attempts as a loop -/

/-- How the loop over the attempts is left. -/
inductive Exit where
  /-- At an attempt, with its answer. -/
  | answered (answer : Except Error String)
  /-- At its end, with the fault of the attempt before. -/
  | exhausted (fault : Option Error)

/-- What the loop does by turns. -/
inductive Turn where
  | waited (time : Duration)
  | asked (r : Sent)
  deriving DecidableEq

/-- The fault of an attempt that is not the last. -/
def faultOf (method target : String) : Outcome → Error
  | .answered r => .status method target r.status
  | .failed | .interrupted => .transport method target

/-- The desk when an attempt begins: a further attempt is reported before the wait. -/
def Desk.begin (desk : Desk σ) (backoff : Nat → Duration) (target : String) (attempt : Nat) :
    Desk σ :=
  if attempt = 0 then desk
  else { desk with log := desk.log ++ [retryRecord target (attempt + 1) (backoff (attempt - 1))] }

/-- The wait before an attempt, and the attempt. -/
def turns (backoff : Nat → Duration) (r : Sent) (attempt : Nat) : List Turn :=
  if attempt = 0 then [.asked r] else [.waited (backoff (attempt - 1)), .asked r]

/-- The loop over the attempts from number `attempt` on, with `left` of them left, the fault of the
one before and the turns so far. -/
def rounds (network : Network σ) (backoff : Nat → Duration) (method target : String) (r : Sent) :
    (left attempt : Nat) → Option Error → List Turn → Desk σ → Exit × List Turn × Desk σ
  | 0, _, fault, past, desk => (.exhausted fault, past, desk)
  | left + 1, attempt, _, past, desk =>
    let begun := desk.begin backoff target attempt
    let result := network r begun.network
    let past := past ++ turns backoff r attempt
    if 0 < left && inconclusive result.1 then
      if result.1 = .interrupted then
        (.answered (.error .interrupted), past, { begun with network := result.2 })
      else rounds network backoff method target r left (attempt + 1)
        (some (faultOf method target result.1)) past { begun with network := result.2 }
    else (.answered (conclude method target result.1), past, { begun with network := result.2 })

section Rounds

variable (network : Network σ) (backoff : Nat → Duration) (method target : String) (r : Sent)

theorem network_begin (desk : Desk σ) (attempt : Nat) :
    (desk.begin backoff target attempt).network = desk.network := by
  unfold Desk.begin
  split <;> rfl

/-- A further attempt begins where an inconclusive one has left off. -/
theorem begin_succ (desk : Desk σ) (attempt : Nat) :
    ({ desk.begin backoff target attempt with network := (network r desk.network).2 } :
        Desk σ).begin backoff target (attempt + 1) =
      (desk.begin backoff target attempt).retrying network backoff target r (attempt + 1) := by
  rw [Desk.begin, if_neg (Nat.succ_ne_zero attempt), Desk.retrying, network_begin]

theorem flatMap_turns_succ (attempt k : Nat) :
    ((List.range (k + 1)).flatMap fun i => turns backoff r (attempt + i)) =
      turns backoff r attempt ++
        (List.range k).flatMap fun i => turns backoff r (attempt + 1 + i) := by
  rw [List.range_succ_eq_map, List.flatMap_cons, List.flatMap_map]
  refine congrArg (turns backoff r attempt ++ ·) (List.flatMap_congr fun i _ => ?_)
  have hshift : attempt + (i + 1) = attempt + 1 + i := by omega
  rw [Nat.succ_eq_add_one, hshift]

/-- **The loop is left at an attempt**, never at its end; its answer is that of `tryFrom`, and each
further attempt is preceded by its wait. -/
theorem rounds_of_settles {more k attempt : Nat} {fault : Option Error} {past : List Turn}
    {desk : Desk σ} (h : Settles more (network.outcome r desk.network) k) :
    rounds network backoff method target r (more + 1) attempt fault past desk =
      let result := tryFrom network backoff method target r more (attempt + 1)
        (desk.begin backoff target attempt)
      (.answered result.1,
        past ++ (List.range (k + 1)).flatMap fun i => turns backoff r (attempt + i), result.2) := by
  induction more generalizing k attempt fault past desk with
  | zero =>
      obtain rfl : k = 0 := Nat.le_zero.mp h.within
      simp [rounds, tryFrom]
  | succ more ih =>
      rw [rounds, tryFrom_succ]
      simp only [network_begin]
      cases k with
      | zero =>
          rcases h.last.resolve_left (Nat.succ_ne_zero more).symm with hconclusive | hinterrupted
          · have hlast : ¬ inconclusive (network r desk.network).1 = true :=
              fun hagain => inconclusive_iff.mp hagain hconclusive
            simp [hlast]
          · have hfirst : (network r desk.network).1 = .interrupted := hinterrupted
            simp [hfirst, inconclusive]
      | succ k =>
          have hagain : inconclusive (network r desk.network).1 = true :=
            inconclusive_of_not_final h.not_final_zero
          have hwhole : (network r desk.network).1 ≠ .interrupted := fun hcut =>
            h.not_final_zero (.inr hcut)
          have hrest := h.next
          simp only [← Network.outcome_next] at hrest
          rw [ih hrest, begin_succ, flatMap_turns_succ backoff r attempt (k + 1)]
          simp [hagain, hwhole]

end Rounds

/-! ## Requests -/

/-- What an outcome means for a request. -/
inductive Means (method target : String) : Outcome → Except Error String → Prop
  /-- A success gives its body, up to the limit. -/
  | body {r : Response} : 200 ≤ r.status → r.status ≤ 299 →
      Means method target (.answered r) (.ok (limitedBody r.body))
  | status {r : Response} : ¬ (200 ≤ r.status ∧ r.status ≤ 299) →
      Means method target (.answered r) (.error (.status method target r.status))
  | failed : Means method target .failed (.error (.transport method target))
  | interrupted : Means method target .interrupted (.error (.transport method target))

theorem means_conclude (method target : String) (o : Outcome) :
    Means method target o (conclude method target o) := by
  cases o with
  | answered r =>
      by_cases hsuccess : 200 ≤ r.status ∧ r.status ≤ 299
      · have hconclude : conclude method target (.answered r) = .ok (limitedBody r.body) := by
          simp [conclude, hsuccess]
        rw [hconclude]
        exact .body hsuccess.1 hsuccess.2
      · have hconclude : conclude method target (.answered r) =
            .error (.status method target r.status) := by
          simpa [conclude] using hsuccess
        rw [hconclude]
        exact .status hsuccess
  | failed => exact .failed
  | interrupted => exact .interrupted

/-- The last attempt gives what its outcome means unless it has been interrupted before the limit. -/
theorem means_lastWord_iff (method target : String) (more k : Nat) (o : Outcome) :
    Means method target o (lastWord method target more k o) ↔ ¬ (k < more ∧ o = .interrupted) := by
  unfold lastWord
  split
  · rename_i hcut
    refine iff_of_false ?_ (not_not_intro hcut)
    rw [hcut.2]
    intro hmeans
    cases hmeans
  · rename_i hwhole
    exact iff_of_true (means_conclude method target o) hwhole

namespace Client

/-- The wait after `n + 1` attempts. -/
def pause (c : Client) (n : Nat) : Duration :=
  match c.retry with
  | some retry => retry.backoff.wait n
  | none => ⟨0⟩

/-- How often a request with these outcomes is made: once, unless it is a `GET` that may be tried
again; then up to the first conclusive outcome, if that comes within the limit. -/
def Asks (c : Client) (method : String) (outcomes : Nat → Outcome) (k : Nat) : Prop :=
  match c.retry with
  | some retry =>
    if method = "GET" then
      IsLeast ({max 1 retry.attempts} ∪ {n | ∃ i : Nat, n = i + 1 ∧ Conclusive (outcomes i)})
        (k : Int)
    else k = 1
  | none => k = 1

/-- The attempts of a client as a loop. -/
def course (c : Client) (network : Network σ) (method target : String) (r : Sent) (desk : Desk σ) :
    Exit × List Turn × Desk σ :=
  rounds network c.pause method target r (c.attempts method) 0 none [] desk

theorem one_le_attempts (c : Client) (method : String) : 1 ≤ c.attempts method := by
  unfold attempts
  split
  · split <;> omega
  · exact Nat.le_refl 1

theorem attempts_eq_one {c : Client} {method : String} (h : c.retry = none ∨ method ≠ "GET") :
    c.attempts method = 1 := by
  unfold attempts
  rcases h with hnone | hother
  · rw [hnone]
  · split
    · rw [if_neg fun hget => hother (beq_iff_eq.mp hget)]
    · rfl

theorem attempts_get {c : Client} {retry : Retry} (h : c.retry = some retry) :
    (c.attempts "GET" : Int) = max 1 retry.attempts := by
  unfold attempts
  rw [h]
  simp only [beq_self_eq_true, if_true]
  omega

theorem asks_iff_of_settles {c : Client} {method : String} {outcomes : Nat → Outcome} {k : Nat}
    (h : Settles (c.attempts method - 1) outcomes k) :
    c.Asks method outcomes (k + 1) ↔
      ¬ (k < c.attempts method - 1 ∧ outcomes k = .interrupted) := by
  have hle := h.within
  unfold Asks
  cases hretry : c.retry with
  | none =>
      rw [attempts_eq_one (.inl hretry)] at hle ⊢
      exact iff_of_true (by omega) fun hcut => by omega
  | some retry =>
      by_cases hget : method = "GET"
      · subst hget
        have hlimit : ((c.attempts "GET" - 1 : Nat) : Int) + 1 = max 1 retry.attempts := by
          have hmax := attempts_get hretry
          omega
        have hleast := h.isLeast_iff
        rw [hlimit] at hleast
        simp only [if_true]
        exact hleast
      · rw [attempts_eq_one (.inr hget)] at hle ⊢
        simp only [if_neg hget]
        exact iff_of_true (by omega) fun hcut => by omega

/-- An attempt that is not the last one is interrupted, and no outcome before is conclusive. -/
def CutShort (c : Client) (method : String) (outcomes : Nat → Outcome) : Prop :=
  ∃ i, i + 1 < c.attempts method ∧ outcomes i = .interrupted ∧
    ∀ j, j < i → ¬ Conclusive (outcomes j)

theorem cutShort_iff_of_settles {c : Client} {method : String} {outcomes : Nat → Outcome} {k : Nat}
    (h : Settles (c.attempts method - 1) outcomes k) :
    c.CutShort method outcomes ↔ k < c.attempts method - 1 ∧ outcomes k = .interrupted := by
  rw [h.interrupted_iff]
  unfold CutShort
  simp only [Nat.lt_sub_iff_add_lt]

theorem send_eq_tryFrom (c : Client) (network : Network σ) {method target : String} (body : String)
    {url : Url} (hmethod : isMethod method = true) (htarget : Url.parse? target = some url)
    (desk : Desk σ) :
    c.send network false method target body desk =
      tryFrom network c.pause method target (c.compose method url body) (c.attempts method - 1) 1
        desk := by
  unfold send
  rw [hmethod, htarget]
  rfl

theorem send_of_settles (c : Client) (network : Network σ) {method target : String} (body : String)
    {url : Url} (hmethod : isMethod method = true) (htarget : Url.parse? target = some url)
    {r : Sent} (hr : c.compose method url body = r) {desk : Desk σ} {k : Nat}
    (h : Settles (c.attempts method - 1) (network.outcome r desk.network) k) :
    c.send network false method target body desk =
      (lastWord method target (c.attempts method - 1) k (network.outcome r desk.network k),
        { desk with
          network := network.after r desk.network (k + 1)
          log := desk.log ++
            (List.range k).map fun i => retryRecord target (i + 2) (c.pause i) }) := by
  have hrecords : retryRecords c.pause target 1 k =
      (List.range k).map fun i => retryRecord target (i + 2) (c.pause i) := by
    unfold retryRecords
    refine List.map_congr_left fun i _ => ?_
    have hattempt : 1 + i + 1 = i + 2 := by omega
    have hwait : 1 - 1 + i = i := by omega
    rw [hattempt, hwait]
  rw [c.send_eq_tryFrom network body hmethod htarget, hr,
    tryFrom_of_settles network c.pause method target r Nat.one_pos h, hrecords]

theorem course_of_settles (c : Client) (network : Network σ) (method target : String) {r : Sent}
    {desk : Desk σ} {k : Nat}
    (h : Settles (c.attempts method - 1) (network.outcome r desk.network) k) :
    c.course network method target r desk =
      let result := tryFrom network c.pause method target r (c.attempts method - 1) 1 desk
      (.answered result.1, (List.range (k + 1)).flatMap (turns c.pause r), result.2) := by
  have hmore : c.attempts method = c.attempts method - 1 + 1 :=
    (Nat.sub_add_cancel (c.one_le_attempts method)).symm
  unfold course
  rw [hmore, rounds_of_settles network c.pause method target r h]
  simp [Desk.begin]

/-- **A request is made until an outcome is conclusive, and answered by what that means, exactly if
it is not cut short.** It is made up to the first final outcome, if that comes within the limit
(`Settles`): what is sent is the request itself, each time after the wait of that attempt, and the
loop over the attempts is never left at its end. How often that should be is said by `Asks`, and what
should be answered by `Means`; both are as they should be if no attempt before the last one is
interrupted, and neither is if one is: then no other attempt is made, and the interruption is given
as it is. A method that is no word is refused and nothing is sent. -/
theorem answers_first_conclusive_iff_not_cutShort (c : Client) (network : Network σ)
    (method : String) {target : String} (body : String) {url : Url}
    (htarget : Url.parse? target = some url) (desk : Desk σ) :
    let r := c.compose method url body
    let outcomes := network.outcome r desk.network
    (isMethod method = true → ∃ k answer,
      Settles (c.attempts method - 1) outcomes k ∧
      c.send network false method target body desk = (answer,
        { desk with
          network := network.after r desk.network (k + 1)
          log := desk.log ++ (List.range k).map fun i => retryRecord target (i + 2) (c.pause i) }) ∧
      (c.send (noting network) false method target body (desk.noted [])).2.network.2 =
        List.replicate (k + 1) r ∧
      c.course network method target r desk = (.answered answer,
        (List.range (k + 1)).flatMap (turns c.pause r),
        (c.send network false method target body desk).2) ∧
      (c.Asks method outcomes (k + 1) ↔ ¬ c.CutShort method outcomes) ∧
      (Means method target (outcomes k) answer ↔ ¬ c.CutShort method outcomes) ∧
      (c.CutShort method outcomes → answer = .error .interrupted)) ∧
    (isMethod method = false → c.send network false method target body desk =
      (.error (.badMethod method target), desk)) := by
  intro r outcomes
  refine ⟨fun hmethod => ?_, fun hmethod => ?_⟩
  · have hr : c.compose method url body = r := rfl
    obtain ⟨k, hk⟩ := exists_settles (c.attempts method - 1) outcomes
    have hnoted : Settles (c.attempts method - 1)
        ((noting network).outcome r (desk.noted []).network) k := by
      have houtcomes := funext (network.outcome_noting r desk.network [])
      exact houtcomes ▸ hk
    have hcut := cutShort_iff_of_settles hk
    refine ⟨k, lastWord method target (c.attempts method - 1) k (outcomes k), hk,
      c.send_of_settles network body hmethod htarget hr hk, ?_, ?_, ?_, ?_, ?_⟩
    · rw [c.send_of_settles (noting network) body hmethod htarget hr hnoted]
      exact congrArg Prod.snd (network.after_noting r desk.network [] (k + 1))
    · rw [c.course_of_settles network method target hk,
        c.send_eq_tryFrom network body hmethod htarget, hr,
        tryFrom_of_settles network c.pause method target r Nat.one_pos hk]
    · rw [asks_iff_of_settles hk, hcut]
    · rw [means_lastWord_iff, hcut]
    · intro hshort
      unfold lastWord
      rw [if_pos (hcut.mp hshort)]
  · unfold send
    rw [hmethod]
    rfl

/-- A client that tries five times. -/
def patient : Client := { retry := some { Retry.standard with attempts := 5 } }

/-- An answer after two failures of different kinds. -/
def late : Nat → Outcome
  | 0 => .answered ⟨503, ""⟩
  | 1 => .failed
  | _ => .answered ⟨200, "late"⟩

/-- The third of up to five attempts is the last one here. -/
theorem third_outcome_answers : ∃ url, Url.parse? "http://a.test/x" = some url ∧
    isMethod "GET" = true ∧ ¬ patient.CutShort "GET" late ∧
    (patient.send (Network.inTurn late) false "GET" "http://a.test/x" "" { network := 0 }).1 =
      .ok "late" ∧
    (patient.send (Network.inTurn late) false "GET" "http://a.test/x" ""
      { network := 0 }).2.network = 3 := by
  have hparse : (Url.parse? "http://a.test/x").isSome = true := by decide +kernel
  obtain ⟨url, hurl⟩ := Option.isSome_iff_exists.mp hparse
  have hmethod : isMethod "GET" = true := by decide
  have hwhole : ¬ patient.CutShort "GET" late := by
    rintro ⟨i, -, hinterrupted, -⟩
    rcases i with _ | _ | i <;> cases hinterrupted
  obtain ⟨k, answer, -, hsend, -, -, hasks, hmeans, -⟩ :=
    (patient.answers_first_conclusive_iff_not_cutShort (Network.inTurn late) "GET" "" hurl
      { network := 0 }).1 hmethod
  rw [funext (Network.outcome_inTurn late _)] at hasks hmeans
  replace hasks := hasks.mpr hwhole
  replace hmeans := hmeans.mpr hwhole
  have hconclusive : Conclusive (late 2) := ⟨⟨200, "late"⟩, rfl, by decide, by decide⟩
  have hk : k = 2 := by
    have hle : ((k + 1 : Nat) : Int) ≤ 3 := hasks.2 (.inr ⟨2, rfl, hconclusive⟩)
    rcases hasks.1 with hlimit | ⟨i, hi, r, hr, hlow, -⟩
    · have hfive : ((k + 1 : Nat) : Int) = 5 := hlimit
      omega
    · -- neither of the first two is conclusive
      rcases i with _ | _ | n
      · cases hr
        exact absurd hlow (by decide)
      · cases hr
      · omega
  subst hk
  rw [hsend]
  refine ⟨url, hurl, hmethod, hwhole, ?_, Network.after_inTurn late _ 3⟩
  generalize hlast : late 2 = o at hmeans
  cases hmeans with
  | body _ _ =>
      cases hlast
      have hshort : limitedBody "late" = "late" := by decide +kernel
      exact congrArg Except.ok hshort
  | status hfailed =>
      cases hlast
      exact absurd ⟨by decide, by decide⟩ hfailed
  | failed => cases hlast
  | interrupted => cases hlast

/-- The time of the first attempt is up, and the second one would be answered. -/
def hasty : Nat → Outcome
  | 0 => .interrupted
  | _ => .answered ⟨200, "late"⟩

/-- A `GET` that may be tried three times should be made twice here and get the second answer; but it
is made once, and the fault is not even said to be that of this request. -/
theorem interrupted_attempt_is_last : ∃ url, Url.parse? "http://a.test/x" = some url ∧
    isMethod "GET" = true ∧ ({} : Client).Asks "GET" hasty 2 ∧
    Means "GET" "http://a.test/x" (hasty 1) (.ok "late") ∧
    (({} : Client).send (Network.inTurn hasty) false "GET" "http://a.test/x" ""
      { network := 0 }).1 = .error .interrupted ∧
    (({} : Client).send (Network.inTurn hasty) false "GET" "http://a.test/x" ""
      { network := 0 }).2.network = 1 := by
  have hparse : (Url.parse? "http://a.test/x").isSome = true := by decide +kernel
  obtain ⟨url, hurl⟩ := Option.isSome_iff_exists.mp hparse
  have hmethod : isMethod "GET" = true := by decide
  have hasks : ({} : Client).Asks "GET" hasty 2 := by
    refine ⟨.inr ⟨1, rfl, ⟨200, "late"⟩, rfl, by decide, by decide⟩, ?_⟩
    rintro n (hlimit | ⟨i, rfl, hconclusive⟩)
    · have hthree : n = 3 := hlimit
      omega
    · rcases i with _ | i
      · exact absurd hconclusive not_conclusive_interrupted
      · omega
  have hshort : limitedBody "late" = "late" := by decide +kernel
  have hmeans : Means "GET" "http://a.test/x" (hasty 1) (.ok (limitedBody "late")) :=
    .body (by decide) (by decide)
  have hsettles : Settles (({} : Client).attempts "GET" - 1) hasty 0 :=
    ⟨Nat.zero_le _, fun i hi => absurd hi (Nat.not_lt_zero i), .inr (.inr rfl)⟩
  rw [← funext (Network.outcome_inTurn hasty (({} : Client).compose "GET" url ""))] at hsettles
  rw [({} : Client).send_of_settles (Network.inTurn hasty) "" hmethod hurl rfl hsettles]
  exact ⟨url, hurl, hmethod, hasks, hshort ▸ hmeans, rfl, rfl⟩

end Client

end Fetch

end PageMacro
