import Gadgetron.Core.Context
import Gadgetron.Lib.Credit
import Gadgetron.Lib.Exec
import Mathlib.Algebra.Order.Ring.Rat
import Mathlib.Data.Rat.Floor

/-!
# The rate limit of a tenant

`TokenBucketRateLimiter`. A call of `consume` samples the clock and then takes the lock of its
tenant's bucket; calls get the lock in any order.
-/

namespace Gadgetron.Quota

open Lib Option

structure Bucket where
  (tokens lastRefill : ℚ)

structure RateLimitedError where
  retryAfterSeconds : ℕ

structure TokenBucketRateLimiter where
  burst : ℕ
  refillPerSec : ℚ
  buckets : Uuid → Option Bucket

namespace TokenBucketRateLimiter

def new (requestsPerMinute burst : ℕ) : TokenBucketRateLimiter where
  burst := burst
  refillPerSec := requestsPerMinute / 60
  buckets := fun _ => none

def isDisabled (self : TokenBucketRateLimiter) : Bool :=
  self.refillPerSec = 0

def entry (self : TokenBucketRateLimiter) (tenant : Uuid) (now : ℚ) : Bucket :=
  (self.buckets tenant).getD ⟨self.burst, now⟩

/-- The tokens of the tenant's bucket after its refill; `duration_since` is zero for an instant
that is earlier. -/
def refilled (self : TokenBucketRateLimiter) (tenant : Uuid) (now : ℚ) : ℚ :=
  let entry := self.entry tenant now
  let elapsedSecs := max (now - entry.lastRefill) 0
  let refill := elapsedSecs * self.refillPerSec
  min (entry.tokens + refill) self.burst

def write (self : TokenBucketRateLimiter) (tenant : Uuid) (bucket : Bucket) :
    TokenBucketRateLimiter :=
  { self with buckets := Function.update self.buckets tenant (some bucket) }

/-- What `consume` does under the lock of the bucket; `now` was sampled before. -/
def consume (self : TokenBucketRateLimiter) (tenant : Uuid) (now : ℚ) :
    Except RateLimitedError Unit × TokenBucketRateLimiter :=
  let tokens := self.refilled tenant now
  if 1 ≤ tokens then (.ok (), self.write tenant ⟨tokens - 1, now⟩)
  else (.error ⟨⌈(1 - tokens) / self.refillPerSec⌉₊⟩, self.write tenant ⟨tokens, now⟩)

def tokensFor (self : TokenBucketRateLimiter) (tenant : Uuid) : ℚ :=
  ((self.buckets tenant).map (·.tokens)).getD self.burst

end TokenBucketRateLimiter

/-! ## Calls of all tenants -/

/-- An accepted call, with the instant that it sampled; a limiter that is disabled samples none. -/
structure AcceptedCall where
  tenant : Uuid
  instant : Option ℚ

structure RateLimit where
  limiter : TokenBucketRateLimiter
  clock : ℚ
  waiting : List (Uuid × ℚ)
  accepted : List AcceptedCall

inductive RateLimitLabel
  | tick (elapsed : ℚ≥0)
  | call (tenant : Uuid)
  /-- The call at this place among the waiting ones gets the lock of its bucket. -/
  | lock (index : ℕ)

namespace RateLimit

def initial (requestsPerMinute burst : ℕ) (clock : ℚ) : RateLimit where
  limiter := .new requestsPerMinute burst
  clock := clock
  waiting := []
  accepted := []

def call (s : RateLimit) (tenant : Uuid) : RateLimit :=
  if s.limiter.isDisabled then { s with accepted := ⟨tenant, none⟩ :: s.accepted }
  else { s with waiting := s.waiting ++ [(tenant, s.clock)] }

def lock (s : RateLimit) (index : ℕ) (tenant : Uuid) (instant : ℚ) : RateLimit :=
  let (result, limiter) := s.limiter.consume tenant instant
  let s := { s with limiter, waiting := s.waiting.eraseIdx index }
  match result with
  | .ok () => { s with accepted := ⟨tenant, some instant⟩ :: s.accepted }
  | .error _ => s

def instants (s : RateLimit) (tenant : Uuid) : List ℚ :=
  (s.accepted.filter fun call => call.tenant = tenant).filterMap (·.instant)

end RateLimit

abbrev rateLimitMachine : Machine RateLimit RateLimitLabel where
  step s
    | .tick elapsed => some { s with clock := s.clock + elapsed }
    | .call tenant => some (s.call tenant)
    | .lock index => (s.waiting[index]?).map fun call => s.lock index call.1 call.2

namespace RateLimit

variable {s s' : RateLimit} {a : RateLimitLabel} {tenant other : Uuid} {instant : ℚ}

/-! ## What a step does -/

def Locks (s : RateLimit) (a : RateLimitLabel) (tenant : Uuid) (instant : ℚ) : Prop :=
  ∃ index, a = .lock index ∧ s.waiting[index]? = some (tenant, instant)

/-- For a tenant, a step does nothing, or a call is accepted or rejected. -/
inductive TenantEffect (tenant : Uuid) (s : RateLimit) (a : RateLimitLabel) (s' : RateLimit) : Prop
  | unchanged (bucket : s'.limiter.buckets tenant = s.limiter.buckets tenant)
      (instants : s'.instants tenant = s.instants tenant)
  | accepted (instant : ℚ) (locks : Locks s a tenant instant)
      (enough : 1 ≤ s.limiter.refilled tenant instant)
      (bucket : s'.limiter.buckets tenant = some ⟨s.limiter.refilled tenant instant - 1, instant⟩)
      (instants : s'.instants tenant = instant :: s.instants tenant)
  | rejected (instant : ℚ) (locks : Locks s a tenant instant)
      (bucket : s'.limiter.buckets tenant = some ⟨s.limiter.refilled tenant instant, instant⟩)
      (instants : s'.instants tenant = s.instants tenant)

theorem lock_of_le (index : ℕ) (henough : 1 ≤ s.limiter.refilled tenant instant) :
    s.lock index tenant instant = { s with
        limiter := s.limiter.write tenant ⟨s.limiter.refilled tenant instant - 1, instant⟩
        waiting := s.waiting.eraseIdx index
        accepted := ⟨tenant, some instant⟩ :: s.accepted } := by
  simp only [lock, TokenBucketRateLimiter.consume, if_pos henough]

theorem lock_of_not_le (index : ℕ) (hlacking : ¬ 1 ≤ s.limiter.refilled tenant instant) :
    s.lock index tenant instant = { s with
        limiter := s.limiter.write tenant ⟨s.limiter.refilled tenant instant, instant⟩
        waiting := s.waiting.eraseIdx index } := by
  simp only [lock, TokenBucketRateLimiter.consume, if_neg hlacking]

theorem write_buckets_of_ne (limiter : TokenBucketRateLimiter) (bucket : Bucket)
    (hne : tenant ≠ other) : (limiter.write other bucket).buckets tenant = limiter.buckets tenant :=
  Function.update_of_ne hne _ _

theorem write_buckets_self (limiter : TokenBucketRateLimiter) (bucket : Bucket) :
    (limiter.write tenant bucket).buckets tenant = some bucket :=
  Function.update_self _ _ _

theorem lock_effect {index : ℕ} (hcall : s.waiting[index]? = some (other, instant)) :
    TenantEffect tenant s (.lock index) (s.lock index other instant) := by
  by_cases henough : 1 ≤ s.limiter.refilled other instant
  · rw [lock_of_le index henough]
    by_cases htenant : tenant = other
    · subst htenant
      refine .accepted instant ⟨index, rfl, hcall⟩ henough (write_buckets_self _ _) ?_
      simp [instants]
    · refine .unchanged (write_buckets_of_ne _ _ htenant) ?_
      simp [instants, Ne.symm htenant]
  · rw [lock_of_not_le index henough]
    by_cases htenant : tenant = other
    · subst htenant
      exact .rejected instant ⟨index, rfl, hcall⟩ (write_buckets_self _ _) rfl
    · exact .unchanged (write_buckets_of_ne _ _ htenant) rfl

theorem step_effect (h : rateLimitMachine.step s a = some s') : TenantEffect tenant s a s' := by
  cases a with
  | tick elapsed =>
    cases h
    exact .unchanged rfl rfl
  | call other =>
    cases h
    unfold call
    split_ifs
    · refine .unchanged rfl ?_
      by_cases htenant : other = tenant <;> simp [instants, htenant]
    · exact .unchanged rfl rfl
  | lock index =>
    obtain ⟨⟨other, instant⟩, hcall, rfl⟩ := map_eq_some_iff.1 h
    exact lock_effect hcall

theorem step_settings (h : rateLimitMachine.step s a = some s') :
    s'.limiter.burst = s.limiter.burst ∧ s'.limiter.refillPerSec = s.limiter.refillPerSec := by
  cases a with
  | tick elapsed =>
    cases h
    exact ⟨rfl, rfl⟩
  | call other =>
    cases h
    unfold call
    split_ifs <;> exact ⟨rfl, rfl⟩
  | lock index =>
    obtain ⟨⟨other, instant⟩, hcall, rfl⟩ := map_eq_some_iff.1 h
    by_cases henough : 1 ≤ s.limiter.refilled other instant
    · simp only [lock_of_le index henough]
      exact ⟨rfl, rfl⟩
    · simp only [lock_of_not_le index henough]
      exact ⟨rfl, rfl⟩

/-! ## The invariants -/

structure Sound (requestsPerMinute burst : ℕ) (s : RateLimit) : Prop where
  burst : s.limiter.burst = burst
  rate : s.limiter.refillPerSec = requestsPerMinute / 60
  tokens : ∀ tenant bucket, s.limiter.buckets tenant = some bucket →
    0 ≤ bucket.tokens ∧ bucket.tokens ≤ s.limiter.burst

/-- The bucket of the tenant, if it has one, has been refilled for an earlier instant than that of
the call which gets its lock. -/
def InOrder (tenant : Uuid) (s : RateLimit) (a : RateLimitLabel) : Prop :=
  ∀ instant bucket, Locks s a tenant instant → s.limiter.buckets tenant = some bucket →
    bucket.lastRefill ≤ instant

structure Accounted (tenant : Uuid) (s : RateLimit) : Prop where
  untouched : s.limiter.buckets tenant = none → s.instants tenant = []
  credit : ∀ bucket, s.limiter.buckets tenant = some bucket →
    Credit (s.limiter.burst : ℚ) s.limiter.refillPerSec (s.instants tenant) bucket.tokens
      bucket.lastRefill

section

variable {requestsPerMinute burst : ℕ}

section

variable (h : Sound requestsPerMinute burst s)
include h

theorem Sound.rate_nonneg : 0 ≤ s.limiter.refillPerSec := by
  rw [h.rate]
  positivity

theorem Sound.refilled (tenant : Uuid) (now : ℚ) :
    0 ≤ s.limiter.refilled tenant now ∧ s.limiter.refilled tenant now ≤ s.limiter.burst := by
  have hentry : 0 ≤ (s.limiter.entry tenant now).tokens := by
    unfold TokenBucketRateLimiter.entry
    cases hbucket : s.limiter.buckets tenant with
    | none => exact Nat.cast_nonneg _
    | some bucket => exact (h.tokens tenant bucket hbucket).1
  have hgrown : 0 ≤ max (now - (s.limiter.entry tenant now).lastRefill) 0 *
      s.limiter.refillPerSec := mul_nonneg (le_max_right _ _) h.rate_nonneg
  exact ⟨le_min (add_nonneg hentry hgrown) (Nat.cast_nonneg _), min_le_right _ _⟩

theorem Sound.step (hstep : rateLimitMachine.step s a = some s') :
    Sound requestsPerMinute burst s' := by
  obtain ⟨hburst, hrate⟩ := step_settings hstep
  refine ⟨hburst.trans h.burst, hrate.trans h.rate, fun tenant bucket hbucket => ?_⟩
  rw [hburst]
  have heffect : TenantEffect tenant s a s' := step_effect hstep
  cases heffect with
  | unchanged hsame =>
    rw [hsame] at hbucket
    exact h.tokens tenant bucket hbucket
  | accepted instant hlocks henough hwritten =>
    obtain ⟨-, hle⟩ := h.refilled tenant instant
    obtain rfl := mem_unique hwritten hbucket
    exact ⟨sub_nonneg.2 henough, by simp only; linarith⟩
  | rejected instant hlocks hwritten =>
    obtain rfl := mem_unique hwritten hbucket
    exact h.refilled tenant instant

end

section

variable (h : Accounted tenant s) (hs : Sound requestsPerMinute burst s)
include h hs

theorem Accounted.refill
    (horder : ∀ bucket, s.limiter.buckets tenant = some bucket → bucket.lastRefill ≤ instant) :
    Credit (s.limiter.burst : ℚ) s.limiter.refillPerSec (s.instants tenant)
      (s.limiter.refilled tenant instant) instant := by
  unfold TokenBucketRateLimiter.refilled TokenBucketRateLimiter.entry
  cases hbucket : s.limiter.buckets tenant with
  | none =>
    have hfull : Credit (s.limiter.burst : ℚ) s.limiter.refillPerSec [] s.limiter.burst instant :=
      credit_full (Nat.cast_nonneg _) hs.rate_nonneg instant
    simpa [h.untouched hbucket] using hfull
  | some bucket =>
    have hle := horder bucket hbucket
    have hrefill := (h.credit bucket hbucket).refill hs.rate_nonneg hle
    simpa [max_eq_left (sub_nonneg.2 hle)] using hrefill

theorem Accounted.step (horder : InOrder tenant s a) (hstep : rateLimitMachine.step s a = some s') :
    Accounted tenant s' := by
  obtain ⟨hburst, hrate⟩ := step_settings hstep
  have heffect : TenantEffect tenant s a s' := step_effect hstep
  cases heffect with
  | unchanged hbucket hinstants =>
    constructor
    · rw [hbucket, hinstants]
      exact h.untouched
    · rw [hbucket, hinstants, hburst, hrate]
      exact h.credit
  | accepted instant hlocks henough hwritten hinstants =>
    have hcredit := h.refill hs fun bucket => horder instant bucket hlocks
    refine ⟨fun hnone => ?_, fun bucket hbucket => ?_⟩
    · rw [hwritten] at hnone
      cases hnone
    · obtain rfl := mem_unique hwritten hbucket
      rw [hinstants, hburst, hrate]
      exact hcredit.spend hs.rate_nonneg henough
  | rejected instant hlocks hwritten hinstants =>
    have hcredit := h.refill hs fun bucket => horder instant bucket hlocks
    refine ⟨fun hnone => ?_, fun bucket hbucket => ?_⟩
    · rw [hwritten] at hnone
      cases hnone
    · obtain rfl := mem_unique hwritten hbucket
      rw [hinstants, hburst, hrate]
      exact hcredit

theorem Accounted.paced :
    Paced (s.limiter.burst : ℚ) s.limiter.refillPerSec (s.instants tenant) := by
  cases hbucket : s.limiter.buckets tenant with
  | none =>
    rw [h.untouched hbucket]
    exact (credit_full (Nat.cast_nonneg _) hs.rate_nonneg 0).paced
  | some bucket => exact (h.credit bucket hbucket).paced

end

/-! ## Runs -/

theorem sound_initial (clock : ℚ) :
    Sound requestsPerMinute burst (initial requestsPerMinute burst clock) where
  burst := rfl
  rate := rfl
  tokens _ _ hbucket := by cases hbucket

theorem accounted_initial (tenant : Uuid) (clock : ℚ) :
    Accounted tenant (initial requestsPerMinute burst clock) where
  untouched _ := rfl
  credit _ hbucket := by cases hbucket

end

/-- The tokens of every tenant stay between zero and the burst.  While no call of a tenant comes to
a bucket refilled for a later instant, every window has at most as many accepted calls of the tenant
as the burst and its refill. -/
theorem rate_limit_bound (requestsPerMinute burst : ℕ) (clock : ℚ) {as : List RateLimitLabel}
    {s : RateLimit}
    (hrun : rateLimitMachine.exec (initial requestsPerMinute burst clock) as = some s)
    (tenant : Uuid) : (0 ≤ s.limiter.tokensFor tenant ∧ s.limiter.tokensFor tenant ≤ burst) ∧
    (rateLimitMachine.Meets (InOrder tenant) (initial requestsPerMinute burst clock) as →
      ∀ start stop, start ≤ stop → (countIn start stop (s.instants tenant) : ℚ) ≤
        burst + requestsPerMinute / 60 * (stop - start)) := by
  have hs : Sound requestsPerMinute burst s :=
    Machine.invariant _ (fun _ _ _ h hstep => h.step hstep) (sound_initial clock) hrun
  constructor
  · unfold TokenBucketRateLimiter.tokensFor
    rw [hs.burst]
    cases hbucket : s.limiter.buckets tenant with
    | none => exact ⟨Nat.cast_nonneg _, le_rfl⟩
    | some bucket =>
      have htokens := hs.tokens tenant bucket hbucket
      rwa [hs.burst] at htokens
  · intro horder
    have haccounted := Machine.invariant_of_meets rateLimitMachine
      (I := fun s => Sound requestsPerMinute burst s ∧ Accounted tenant s)
      (fun _ _ _ h hin hstep => ⟨h.1.step hstep, h.2.step h.1 hin hstep⟩)
      ⟨sound_initial clock, accounted_initial tenant clock⟩ horder hrun
    have hpaced := haccounted.2.paced hs
    rwa [hs.burst, hs.rate] at hpaced

def inOrderTest (s : RateLimit) : RateLimitLabel → Bool
  | .lock index =>
    (s.waiting[index]?).all fun call =>
      (s.limiter.buckets call.1).all fun bucket => bucket.lastRefill ≤ call.2
  | _ => true

theorem inOrder_of_inOrderTest (h : inOrderTest s a) : InOrder tenant s a := by
  rintro instant bucket ⟨index, rfl, hcall⟩ hbucket
  simpa [inOrderTest, hcall, hbucket] using h

/-- One token a second and a burst of one; two calls get their locks the other way round. -/
def sampleSwappedRun : List RateLimitLabel :=
  [.call 1, .tick 10, .call 1, .lock 1, .lock 0]

def sampleOrderedRun : List RateLimitLabel :=
  [.call 1, .lock 0, .tick 10, .call 1, .call 1, .lock 0, .lock 0]

theorem rate_limit_bound_of_sample :
    ∃ s, rateLimitMachine.exec (initial 60 1 0) sampleOrderedRun = some s ∧
      countIn 0 10 (s.instants 1) = 2 ∧
      (countIn 10 10 (s.instants 1) : ℚ) ≤ (1 : ℕ) + (60 : ℕ) / 60 * (10 - 10) := by
  have hcount : (rateLimitMachine.exec (initial 60 1 0) sampleOrderedRun).map
      (fun s => countIn 0 10 (s.instants 1)) = some 2 := by decide +kernel
  obtain ⟨s, hs, hcount⟩ := map_eq_some_iff.1 hcount
  have horder : rateLimitMachine.meetsTest inOrderTest (initial 60 1 0) sampleOrderedRun := by
    decide +kernel
  refine ⟨s, hs, hcount, (rate_limit_bound 60 1 0 hs 1).2 ?_ 10 10 le_rfl⟩
  exact Machine.meets_of_meetsTest _ (fun _ _ => inOrder_of_inOrderTest) horder

/-- The late call moves the refill back, and the same ten seconds are refilled twice. -/
theorem double_refill_exceeds_burst :
    ∃ s, rateLimitMachine.exec (initial 60 1 0) (sampleSwappedRun ++ [.call 1, .lock 0]) = some s ∧
      ¬ (countIn 10 10 (s.instants 1) : ℚ) ≤ (1 : ℕ) + (60 : ℕ) / 60 * (10 - 10) := by
  have hcount : (rateLimitMachine.exec (initial 60 1 0)
      (sampleSwappedRun ++ [.call 1, .lock 0])).map (fun s => countIn 10 10 (s.instants 1)) =
        some 2 := by decide +kernel
  obtain ⟨s, hs, hcount⟩ := map_eq_some_iff.1 hcount
  refine ⟨s, hs, ?_⟩
  rw [hcount]
  norm_num

end RateLimit

end Gadgetron.Quota
