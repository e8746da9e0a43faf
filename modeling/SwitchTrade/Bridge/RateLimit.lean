import SwitchTrade.Transition.Bucket
import Mathlib.Algebra.Order.Ring.Rat
import Mathlib.Algebra.BigOperators.Ring.List
import Mathlib.Tactic.NormNum

/-!
# The token bucket of the frame relay

`TokenBucket` of `framerelay/rate_limit.py`, over exact rationals. A call refills by the time that
went by since the reading of the call before it, and it takes that reading as its own whether the
clock went forward or back. So a clock that goes back and comes forward again is paid for the way it
comes forward, each time.
-/

namespace SwitchTrade.Bridge

/-- `TokenBucket.stats`. -/
structure RateStats where
  frames : Nat
  allowed : Nat
  dropped : Nat
  bytesIn : Nat
  bytesAllowed : Nat
  bytesDropped : Nat
  deriving DecidableEq, Repr

/-- `log` holds the lines the callback was given, where there is a callback. -/
structure TokenBucket where
  rate : ℚ
  burst : ℚ
  warnInterval : ℚ
  tokens : ℚ
  last : Option ℚ
  lastWarn : Option ℚ
  stats : RateStats
  log : Option (List String)
  rate_pos : 0 < rate
  one_le_burst : 1 ≤ burst
  tokens_nonneg : 0 ≤ tokens
  tokens_le_burst : tokens ≤ burst

/-- `f"{value:.0f}"`: the nearest integer, of two the even one. -/
def fixedZero (value : ℚ) : String :=
  let below := value.floor
  let part := value - below
  if part < 1 / 2 ∨ (part = 1 / 2 ∧ below % 2 = 0) then toString below else toString (below + 1)

namespace TokenBucket

/-- `TokenBucket.__init__`; where it raises there is the text of the error. -/
def new (rate : ℚ) (burst : Option ℚ) (logging : Bool) (warnInterval : ℚ) :
    Except String TokenBucket :=
  if hrate : rate ≤ 0 then .error "rate must be positive"
  else if hburst : burst.getD rate < 1 then .error "burst must admit at least one frame"
  else .ok {
    rate := rate
    burst := burst.getD rate
    warnInterval := warnInterval
    tokens := burst.getD rate
    last := none
    lastWarn := none
    stats := ⟨0, 0, 0, 0, 0, 0⟩
    log := if logging then some [] else none
    rate_pos := lt_of_not_ge hrate
    one_le_burst := le_of_not_gt hburst
    tokens_nonneg := le_trans zero_le_one (le_of_not_gt hburst)
    tokens_le_burst := le_refl _ }

/-- The tokens after the refill at the head of `allow`. -/
def refilled (self : TokenBucket) (now : ℚ) : ℚ :=
  match self.last with
  | none => self.tokens
  | some last =>
    if now > last then min self.burst (self.tokens + (now - last) * self.rate) else self.tokens

/-- How far the clock went forward since the reading before, if there is one. -/
def forward (last : Option ℚ) (now : ℚ) : ℚ :=
  match last with
  | none => 0
  | some last => max 0 (now - last)

theorem forward_nonneg (last : Option ℚ) (now : ℚ) : 0 ≤ forward last now := by
  cases last with
  | none => exact le_refl 0
  | some last => exact le_max_left 0 _

/-- The refill is the draw's filling, with what the time that went by is worth. -/
theorem refilled_eq (self : TokenBucket) (now : ℚ) :
    self.refilled now = Bucket.full self.burst self.tokens (forward self.last now * self.rate) := by
  have hkept : Bucket.full self.burst self.tokens (0 * self.rate) = self.tokens := by
    rw [Bucket.full, zero_mul, add_zero]
    exact min_eq_right self.tokens_le_burst
  unfold refilled forward
  cases self.last with
  | none => exact hkept.symm
  | some last =>
    by_cases hforward : now > last
    · have hmove : max 0 (now - last) = now - last := max_eq_right (by linarith)
      simp only [if_pos hforward, hmove, Bucket.full]
    · have hmove : max 0 (now - last) = 0 := max_eq_left (by linarith)
      simp only [if_neg hforward, hmove, hkept]

theorem refilled_nonneg (self : TokenBucket) (now : ℚ) : 0 ≤ self.refilled now := by
  have hgain : 0 ≤ forward self.last now * self.rate :=
    mul_nonneg (forward_nonneg _ _) (le_of_lt self.rate_pos)
  have hburst : 0 ≤ self.burst := le_trans zero_le_one self.one_le_burst
  have htokens : 0 ≤ self.tokens := self.tokens_nonneg
  rw [refilled_eq]
  exact le_min hburst (by linarith)

theorem refilled_le_burst (self : TokenBucket) (now : ℚ) : self.refilled now ≤ self.burst := by
  rw [refilled_eq]
  exact Bucket.full_le_cap

/-- `allow`. -/
def allow (self : TokenBucket) (now : ℚ) (frameLen : Int) : Bool × TokenBucket :=
  let length := (max 0 frameLen).toNat
  let frames := self.stats.frames + 1
  let bytesIn := self.stats.bytesIn + length
  if htoken : 1 ≤ self.refilled now then
    (true, { self with
      tokens := self.refilled now - 1
      last := some now
      stats := { self.stats with
        frames := frames
        bytesIn := bytesIn
        allowed := self.stats.allowed + 1
        bytesAllowed := self.stats.bytesAllowed + length }
      tokens_nonneg := sub_nonneg.mpr htoken
      tokens_le_burst := le_trans (sub_le_self _ zero_le_one) (self.refilled_le_burst now) })
  else
    let dropped := self.stats.dropped + 1
    let due : Bool := match self.lastWarn with
      | none => true
      | some lastWarn => decide (self.warnInterval ≤ now - lastWarn)
    let line := "[rate] " ++ fixedZero self.rate ++ "/s exceeded - dropping ("
      ++ toString dropped ++ " dropped / " ++ toString frames ++ " seen)"
    (false, { self with
      tokens := self.refilled now
      last := some now
      lastWarn := if self.log.isSome && due then some now else self.lastWarn
      log := if due then self.log.map (· ++ [line]) else self.log
      stats := { self.stats with
        frames := frames
        bytesIn := bytesIn
        dropped := dropped
        bytesDropped := self.stats.bytesDropped + length }
      tokens_nonneg := self.refilled_nonneg now
      tokens_le_burst := self.refilled_le_burst now })

/-! ## One call -/

variable {self : TokenBucket} {now : ℚ} {frameLen : Int}

theorem allow_fst : (self.allow now frameLen).1 =
    Bucket.takes self.burst self.tokens (forward self.last now * self.rate) := by
  unfold allow Bucket.takes
  rw [← refilled_eq]
  by_cases htoken : 1 ≤ self.refilled now
  · simp [htoken]
  · simp [htoken]

theorem allow_tokens : (self.allow now frameLen).2.tokens =
    Bucket.rest self.burst self.tokens (forward self.last now * self.rate) := by
  unfold allow Bucket.rest
  rw [← refilled_eq]
  by_cases htoken : 1 ≤ self.refilled now
  · simp [htoken]
  · simp [htoken]

@[simp] theorem allow_last : (self.allow now frameLen).2.last = some now := by
  unfold allow
  by_cases htoken : 1 ≤ self.refilled now
  · simp [htoken]
  · simp [htoken]

@[simp] theorem allow_rate : (self.allow now frameLen).2.rate = self.rate := by
  unfold allow
  by_cases htoken : 1 ≤ self.refilled now
  · simp [htoken]
  · simp [htoken]

@[simp] theorem allow_burst : (self.allow now frameLen).2.burst = self.burst := by
  unfold allow
  by_cases htoken : 1 ≤ self.refilled now
  · simp [htoken]
  · simp [htoken]

theorem tokens_lt_of_refused (h : (self.allow now frameLen).1 = false) :
    (self.allow now frameLen).2.tokens < 1 := by
  rw [allow_fst, Bucket.takes, decide_eq_false_iff_not] at h
  rw [allow_tokens, Bucket.rest, if_neg h]
  exact lt_of_not_ge h

/-- A call at a reading that is not later than the one before adds nothing. -/
theorem tokens_of_backward {last : ℚ} (hlast : self.last = some last) (hback : now ≤ last) :
    (self.allow now frameLen).2.tokens +
      ((if (self.allow now frameLen).1 then 1 else 0 : Nat) : ℚ) = self.tokens := by
  have hmove : forward self.last now = 0 := by
    rw [hlast]
    exact max_eq_left (by linarith)
  have hfull : Bucket.full self.burst self.tokens 0 = self.tokens := by
    rw [Bucket.full, add_zero]
    exact min_eq_right self.tokens_le_burst
  rw [allow_tokens, allow_fst, hmove, zero_mul, Bucket.rest_eq, hfull, sub_add_cancel]

/-! ## A run of calls -/

/-- One call: the reading of the clock and the length of the frame. -/
structure Call where
  now : ℚ
  frameLen : Int
  deriving DecidableEq, Repr

/-- The bucket after the calls. -/
def after (self : TokenBucket) (calls : List Call) : TokenBucket :=
  calls.foldl (fun bucket call => (bucket.allow call.now call.frameLen).2) self

/-- How many of the calls return `True`. -/
def admitted (self : TokenBucket) : List Call → Nat
  | [] => 0
  | call :: calls =>
    (if (self.allow call.now call.frameLen).1 then 1 else 0) +
      admitted (self.allow call.now call.frameLen).2 calls

/-- How far the clock went forward to each of the readings. -/
def forwards (last : Option ℚ) : List ℚ → List ℚ
  | [] => []
  | now :: readings => forward last now :: forwards (some now) readings

/-- What the calls gain, each before it draws. -/
def gains (self : TokenBucket) (calls : List Call) : List ℚ :=
  (forwards self.last (calls.map Call.now)).map (· * self.rate)

variable {calls more : List Call} {call : Call}

theorem after_cons : self.after (call :: calls) =
    (self.allow call.now call.frameLen).2.after calls := rfl

theorem after_append : self.after (calls ++ more) = (self.after calls).after more :=
  List.foldl_append

theorem gains_cons : self.gains (call :: calls) =
    forward self.last call.now * self.rate ::
      (self.allow call.now call.frameLen).2.gains calls := by
  simp [gains, forwards]

theorem admitted_eq : self.admitted calls =
    Bucket.taken self.burst self.tokens (self.gains calls) := by
  induction calls generalizing self with
  | nil => rfl
  | cons call calls ih =>
    rw [gains_cons, Bucket.taken, admitted, allow_fst, ih, allow_burst, allow_tokens]

theorem after_tokens : (self.after calls).tokens =
    Bucket.levelAfter self.burst self.tokens (self.gains calls) := by
  induction calls generalizing self with
  | nil => rfl
  | cons call calls ih =>
    rw [gains_cons, after_cons, ih, allow_burst, allow_tokens]
    rfl

theorem after_rate : (self.after calls).rate = self.rate := by
  induction calls generalizing self with
  | nil => rfl
  | cons call calls ih => rw [after_cons, ih, allow_rate]

theorem after_burst : (self.after calls).burst = self.burst := by
  induction calls generalizing self with
  | nil => rfl
  | cons call calls ih => rw [after_cons, ih, allow_burst]

theorem after_snoc_last : (self.after (calls ++ [call])).last = some call.now := by
  rw [after_append, after_cons]
  exact allow_last

theorem gains_append :
    self.gains (calls ++ more) = self.gains calls ++ (self.after calls).gains more := by
  induction calls generalizing self with
  | nil => rfl
  | cons call calls ih =>
    rw [List.cons_append, gains_cons, gains_cons, ih, after_cons, List.cons_append]

theorem length_gains : (self.gains calls).length = calls.length := by
  induction calls generalizing self with
  | nil => rfl
  | cons call calls ih =>
    rw [gains_cons, List.length_cons, List.length_cons, ih]

theorem gains_nonneg {gain : ℚ} (h : gain ∈ self.gains calls) : 0 ≤ gain := by
  induction calls generalizing self with
  | nil => cases h
  | cons call calls ih =>
    rw [gains_cons, List.mem_cons] at h
    rcases h with rfl | h
    · exact mul_nonneg (forward_nonneg _ _) (le_of_lt self.rate_pos)
    · exact ih h

/-! ## How far the clock moves within a run -/

/-- The forward moves of the clock from each reading to the next, added up. -/
def climb (readings : List ℚ) : ℚ := (forwards none readings).sum

/-- The largest reading less the smallest. -/
def span : List ℚ → ℚ
  | [] => 0
  | now :: readings => readings.foldl max now - readings.foldl min now

theorem climb_cons {first : ℚ} {readings : List ℚ} :
    climb (first :: readings) = (forwards (some first) readings).sum := by
  rw [climb, forwards, List.sum_cons, forward, zero_add]

theorem foldl_min_of_le {first : ℚ} {readings : List ℚ} (h : ∀ r ∈ readings, first ≤ r) :
    readings.foldl min first = first := by
  induction readings with
  | nil => rfl
  | cons r readings ih =>
    rw [List.foldl_cons, min_eq_left (h r (by simp))]
    exact ih (fun q hq => h q (by simp [hq]))

theorem foldl_max_eq {first : ℚ} {readings : List ℚ}
    (h : (first :: readings).Pairwise (· ≤ ·)) :
    readings.foldl max first = first + (forwards (some first) readings).sum := by
  induction readings generalizing first with
  | nil => exact (add_zero first).symm
  | cons r readings ih =>
    rw [List.pairwise_cons] at h
    have hle : first ≤ r := h.1 r (by simp)
    have hmove : forward (some first) r = r - first := max_eq_right (by linarith)
    rw [List.foldl_cons, max_eq_right hle, ih h.2, forwards, List.sum_cons, hmove]
    linarith

/-- A clock that never goes back climbs from its smallest reading to its largest. -/
theorem climb_eq_span {readings : List ℚ} (h : readings.Pairwise (· ≤ ·)) :
    climb readings = span readings := by
  cases readings with
  | nil => rfl
  | cons first readings =>
    have hleast : readings.foldl min first = first := foldl_min_of_le (List.pairwise_cons.mp h).1
    rw [climb_cons, span, hleast, foldl_max_eq h]
    linarith

theorem sum_gains_eq : (self.gains calls).sum =
    self.rate * (forwards self.last (calls.map Call.now)).sum := by
  rw [gains, List.sum_map_mul_right, List.map_id', mul_comm]

theorem sum_gains_allow : ((self.allow call.now call.frameLen).2.gains calls).sum =
    self.rate * climb ((call :: calls).map Call.now) := by
  rw [sum_gains_eq, allow_rate, allow_last, List.map_cons, climb_cons]

/-! ## The two bounds -/

theorem admitted_le :
    (self.admitted calls : ℚ) ≤ self.burst + self.rate * climb (calls.map Call.now) := by
  cases calls with
  | nil =>
    have hburst : 0 ≤ self.burst := le_trans zero_le_one self.one_le_burst
    simpa [admitted, climb, forwards] using hburst
  | cons call calls =>
    have hbound := @Bucket.taken_cons_add_level_le ℚ _ _ self.burst self.tokens
      (forward self.last call.now * self.rate)
      ((self.allow call.now call.frameLen).2.gains calls) _
    have hleft : 0 ≤ (self.after (call :: calls)).tokens := tokens_nonneg _
    rw [after_tokens] at hleft
    rw [← gains_cons, sum_gains_allow, ← admitted_eq] at hbound
    linarith

/-- A refused call ends a run whose budget one more frame would exceed. -/
theorem refused_of_full (hfull : self.tokens = self.burst)
    (h : ((self.after calls).allow call.now call.frameLen).1 = false) :
    ∃ before run, calls ++ [call] = before ++ run ∧
      self.burst + self.rate * climb (run.map Call.now) <
        (self.after before).admitted run + 1 := by
  have hne : self.gains (calls ++ [call]) ≠ [] := by
    intro hnil
    have hlength : (self.gains (calls ++ [call])).length = (calls ++ [call]).length := length_gains
    rw [hnil] at hlength
    simp at hlength
  have haccount : Bucket.Account self.burst self.burst (self.gains (calls ++ [call])) :=
    Bucket.account (fun g hg => gains_nonneg hg) hne
  obtain ⟨earlier, gain, later, hgains, hsum⟩ := haccount
  have hparts : self.gains ((calls ++ [call]).take earlier.length) = earlier ∧
      (self.after ((calls ++ [call]).take earlier.length)).gains
        ((calls ++ [call]).drop earlier.length) = gain :: later := by
    have hall : self.gains ((calls ++ [call]).take earlier.length ++
        (calls ++ [call]).drop earlier.length) = earlier ++ gain :: later := by
      rw [List.take_append_drop, hgains]
    have hshort : earlier.length ≤ (calls ++ [call]).length := by
      have hlength := congrArg List.length hgains
      rw [length_gains] at hlength
      simp only [List.length_append, List.length_cons] at hlength ⊢
      omega
    rw [gains_append] at hall
    refine List.append_inj hall ?_
    rw [length_gains, List.length_take_of_le hshort]
  refine ⟨_, _, (List.take_append_drop earlier.length _).symm, ?_⟩
  generalize (calls ++ [call]).take earlier.length = before at hparts ⊢
  generalize (calls ++ [call]).drop earlier.length = run at hparts ⊢
  obtain ⟨hbefore, hrun⟩ := hparts
  have htaken : Bucket.taken self.burst (Bucket.levelAfter self.burst self.burst earlier)
      (gain :: later) = (self.after before).admitted run := by
    rw [admitted_eq, after_burst, after_tokens, hbefore, hrun, hfull]
  have hlevel : Bucket.levelAfter self.burst self.burst (self.gains (calls ++ [call])) < 1 := by
    have htokens : (self.after (calls ++ [call])).tokens < 1 := by
      rw [after_append]
      exact tokens_lt_of_refused h
    rwa [after_tokens, hfull] at htokens
  have hlater : later.sum = self.rate * climb (run.map Call.now) := by
    cases run with
    | nil => cases hrun
    | cons first rest =>
      rw [gains_cons, List.cons.injEq] at hrun
      rw [← hrun.2, sum_gains_allow, after_rate]
  rw [htaken, hlater] at hsum
  linarith

/-! ## From a new bucket -/

/-- The readings of the calls never go back. -/
def Forward (calls : List Call) : Prop := (calls.map Call.now).Pairwise (· ≤ ·)

theorem new_full {rate : ℚ} {burst : Option ℚ} {logging : Bool} {warnInterval : ℚ}
    (h : new rate burst logging warnInterval = .ok self) :
    self.rate = rate ∧ self.burst = burst.getD rate ∧ self.tokens = self.burst := by
  unfold new at h
  split at h
  · cases h
  · split at h
    · cases h
    · cases h
      exact ⟨rfl, rfl, rfl⟩

/-- What holds of every window of every history of a bucket: what it admits is paid by the burst
and the forward moves of the clock, a backward jump adds nothing, and while the clock never goes
back a call is refused only where its budget is spent. -/
theorem window_bound {rate : ℚ} {burst : Option ℚ} {logging : Bool} {warnInterval : ℚ}
    (h : new rate burst logging warnInterval = .ok self) :
    (∀ before window, ((self.after before).admitted window : ℚ) ≤
      burst.getD rate + rate * climb (window.map Call.now)) ∧
    (∀ before window, Forward window → ((self.after before).admitted window : ℚ) ≤
      burst.getD rate + rate * span (window.map Call.now)) ∧
    (∀ before last call, call.now ≤ last.now →
      (self.after (before ++ [last, call])).tokens +
        (self.after (before ++ [last])).admitted [call] = (self.after (before ++ [last])).tokens) ∧
    (∀ before call, Forward (before ++ [call]) →
      ((self.after before).allow call.now call.frameLen).1 = false →
      ∃ earlier run, before ++ [call] = earlier ++ run ∧
        burst.getD rate + rate * span (run.map Call.now) <
          (self.after earlier).admitted run + 1) := by
  obtain ⟨hrate, hburst, hfull⟩ := new_full h
  have hwindow : ∀ before window, ((self.after before).admitted window : ℚ) ≤
      burst.getD rate + rate * climb (window.map Call.now) := by
    intro before window
    have hbound := @admitted_le (self.after before) window
    rwa [after_burst, after_rate, hburst, hrate] at hbound
  refine ⟨hwindow, ?_, ?_, ?_⟩
  · intro before window hforward
    rw [← climb_eq_span hforward]
    exact hwindow before window
  · intro before last call hback
    have hlast : (self.after (before ++ [last])).last = some last.now := after_snoc_last
    have hpair : before ++ [last, call] = (before ++ [last]) ++ [call] := by simp
    rw [hpair, after_append, after_cons]
    exact tokens_of_backward hlast hback
  · intro before call hforward hrefused
    obtain ⟨earlier, run, hsplit, hover⟩ := refused_of_full hfull hrefused
    have hrun : Forward run := by
      rw [Forward, hsplit, List.map_append] at hforward
      exact (List.pairwise_append.mp hforward).2.1
    rw [climb_eq_span hrun, hburst, hrate] at hover
    exact ⟨earlier, run, hsplit, hover⟩

/-- A clock that swings between two readings is paid each time it comes forward: three frames pass
in a window whose readings are one second apart, at one frame a second and a burst of one. -/
theorem swinging_clock_exceeds_span :
    ∃ self, new 1 (some 1) false 1 = .ok self ∧ ∃ window,
      ¬ (self.admitted window : ℚ) ≤ 1 + 1 * span (window.map Call.now) := by
  refine ⟨_, rfl, [⟨0, 60⟩, ⟨1, 60⟩, ⟨0, 60⟩, ⟨1, 60⟩], ?_⟩
  decide +kernel

theorem window_bound_steady :
    ∃ self, new 1 (some 2) true 1 = .ok self ∧
      ((self.after [⟨0, 60⟩]).admitted [⟨0, 60⟩, ⟨1, 60⟩] : ℚ) ≤
        2 + 1 * climb [0, 1] ∧
      ((self.after [⟨0, 60⟩]).admitted [⟨0, 60⟩, ⟨1, 60⟩] : ℚ) ≤ 2 + 1 * span [0, 1] ∧
      (self.after [⟨1, 60⟩, ⟨0, 60⟩]).tokens + (self.after [⟨1, 60⟩]).admitted [⟨0, 60⟩] =
        (self.after [⟨1, 60⟩]).tokens ∧
      ∃ earlier run, [⟨0, 60⟩, ⟨0, 60⟩, ⟨0, 60⟩] = earlier ++ run ∧
        2 + 1 * span (run.map Call.now) < (self.after earlier).admitted run + 1 := by
  refine ⟨_, rfl, ?_⟩
  have hbound := @window_bound _ 1 (some 2) true 1 rfl
  refine ⟨hbound.1 [⟨0, 60⟩] [⟨0, 60⟩, ⟨1, 60⟩], hbound.2.1 [⟨0, 60⟩] [⟨0, 60⟩, ⟨1, 60⟩] ?_,
    hbound.2.2.1 [] ⟨1, 60⟩ ⟨0, 60⟩ (by norm_num), hbound.2.2.2 [⟨0, 60⟩, ⟨0, 60⟩] ⟨0, 60⟩ ?_ ?_⟩
  · simp [Forward]
  · simp [Forward]
  · decide +kernel

end TokenBucket

end SwitchTrade.Bridge
