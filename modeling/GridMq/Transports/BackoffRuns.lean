import GridMq.Transports.Backoff
import Mathlib.Data.Nat.Find
import Mathlib.Tactic.Linarith

set_option autoImplicit false

/-!
# The timeouts of a back-off (`src/transports/utils/backoff.c`, `src/core/sock.c`)

An endpoint makes its back-off of two options of the socket and starts it before each retry.
The timeouts double up to the maximum that the options name, as long as the product with which
they are computed stays within `int`.
-/

namespace GridMq.Transports

open GridMq.Aio

/-- The values of a C `int`. -/
def IsInt (n : Int) : Prop := -2 ^ 31 ≤ n ∧ n < 2 ^ 31

theorem wrapInt_of_isInt {n : Int} (h : IsInt n) : wrapInt n = n := by
  obtain ⟨hlow, hhigh⟩ := h
  apply Int.bmod_eq_of_le
  · omega
  · omega

/-! ## The options -/

/-- `reconnect_ivl` and `reconnect_ivl_max` of `struct grid_sock`; `grid_sock_setopt_inner`
refuses negative ones. -/
structure ReconnectOptions where
  ivl : Int
  ivlMax : Int
  ivl_nonneg : 0 ≤ ivl
  ivl_isInt : IsInt ivl
  ivlMax_nonneg : 0 ≤ ivlMax
  ivlMax_isInt : IsInt ivlMax

namespace ReconnectOptions

/-- What `grid_sock_init` sets them to. -/
def default : ReconnectOptions where
  ivl := 100
  ivlMax := 0
  ivl_nonneg := by decide
  ivl_isInt := by constructor <;> decide
  ivlMax_nonneg := by decide
  ivlMax_isInt := by constructor <;> decide

/-- The maximum of the timeouts, as the manual has it. -/
def maximum (o : ReconnectOptions) : Int :=
  if o.ivlMax = 0 ∨ o.ivlMax < o.ivl then o.ivl else o.ivlMax

/-- The maximum that the endpoints hand to `grid_backoff_init`. -/
def maxivl (o : ReconnectOptions) : Int := if o.ivlMax = 0 then o.ivl else o.ivlMax

theorem maxivl_nonneg (o : ReconnectOptions) : 0 ≤ o.maxivl := by
  simp only [maxivl]
  split
  · exact o.ivl_nonneg
  · exact o.ivlMax_nonneg

theorem maxivl_lt (o : ReconnectOptions) : o.maxivl < 2 ^ 31 := by
  simp only [maxivl]
  split
  · exact o.ivl_isInt.2
  · exact o.ivlMax_isInt.2

/-- A maximum that the manual says is ignored. -/
def Ignored (o : ReconnectOptions) : Prop := 0 < o.ivlMax ∧ o.ivlMax < o.ivl

theorem maxivl_of_ignored {o : ReconnectOptions} (h : o.Ignored) :
    o.maxivl = o.ivlMax ∧ o.maximum = o.ivl := by
  have hne : o.ivlMax ≠ 0 := Int.ne_of_gt h.1
  exact ⟨if_neg hne, if_pos (Or.inr h.2)⟩

theorem maxivl_eq_maximum {o : ReconnectOptions} (h : ¬o.Ignored) : o.maxivl = o.maximum := by
  have hmax := o.ivlMax_nonneg
  simp only [Ignored, not_and, Int.not_lt] at h
  simp only [maxivl, maximum]
  split
  · next hzero => rw [if_pos (Or.inl hzero)]
  · next hne =>
      have hle : o.ivl ≤ o.ivlMax := h (by omega)
      rw [if_neg (by omega)]

/-- The interval after `k` timeouts, without a maximum. -/
def product (o : ReconnectOptions) (k : Nat) : Int := (2 ^ k - 1) * o.ivl

theorem product_mono (o : ReconnectOptions) {k l : Nat} (h : k ≤ l) :
    o.product k ≤ o.product l := by
  apply Int.mul_le_mul_of_nonneg_right _ o.ivl_nonneg
  have hpow : (2 : Int) ^ k ≤ 2 ^ l := pow_le_pow_right₀ (by decide) h
  omega

theorem product_nonneg (o : ReconnectOptions) (k : Nat) : 0 ≤ o.product k := by
  have h := o.product_mono (Nat.zero_le k)
  simpa [product] using h

end ReconnectOptions

/-! ## Runs -/

namespace Backoff

/-- `grid_backoff_init`, as the endpoints call it. -/
def init (o : ReconnectOptions) : Backoff where
  minivl := o.ivl
  maxivl := o.maxivl

/-- What a back-off can be after it was started `k` times. -/
inductive Runs (o : ReconnectOptions) : Nat → Backoff → Prop where
  | init : Runs o 0 (init o)
  | start {k : Nat} {b b' : Backoff} :
      Runs o k b → b.start false = .ok b' → Runs o (k + 1) b'
  | stop {k : Nat} {b b' : Backoff} : Runs o k b → b.stop = .ok b' → Runs o k b'
  | work {k : Nat} {b b' : Backoff} {w : Work} {e : Option TimerEvent} :
      Runs o k b → b.Ready w → b.work w = .ok (b', e) → Runs o k b'

/-- After `k` timeouts one of `t` is started. -/
def Starts (o : ReconnectOptions) (k : Nat) (t : Int) : Prop :=
  ∃ b b', Runs o k b ∧ b.start false = .ok b' ∧ b'.timer.timeout = t

/-- Nothing that `grid_backoff_start` computes leaves `int`. -/
structure Exact (b : Backoff) : Prop where
  pred : IsInt (b.n - 1)
  product : IsInt ((b.n - 1) * b.minivl)
  double : ¬b.interval > b.maxivl → IsInt (b.n * 2)

/-- What the manual says of the timeouts. -/
structure Documented (o : ReconnectOptions) : Prop where
  starts : ∀ k b, Runs o k b → b.isIdle false = true →
    b.Exact ∧ ∃ b', b.start false = .ok b'
  timeout : ∀ k t, Starts o k t → t = min o.maximum (o.product k)
  bounds : ∀ k t, Starts o k t → 0 ≤ t ∧ t ≤ o.maximum
  grows : ∀ k l t u, k ≤ l → Starts o k t → Starts o l u → t ≤ u

variable {o : ReconnectOptions} {b b' : Backoff} {k : Nat}

/-! ## What a step changes -/

/-- What `grid_backoff_start` does, where it does not abort. -/
theorem start_eq_ok_iff :
    b.start false = .ok b' ↔ ∃ t, b.timer.start false b.timeout = .ok t ∧
      b' = { b with
        timer := t
        n := if b.interval > b.maxivl then b.n else wrapInt (b.n * 2) } := by
  constructor
  · intro h
    obtain ⟨t, ht, hb⟩ := bind_eq_ok_iff.mp h
    exact ⟨t, ht, (Except.ok.inj hb).symm⟩
  · rintro ⟨t, ht, rfl⟩
    simp only [start, ht, ok_bind, pure_eq_ok]

/-- `grid_backoff_stop` and the worker only touch the timer. -/
theorem stop_timer (h : b.stop = .ok b') : b' = { b with timer := b'.timer } := by
  obtain ⟨t, -, hb⟩ := bind_eq_ok_iff.mp h
  cases hb
  rfl

theorem work_timer {w : Work} {e : Option TimerEvent} (h : b.work w = .ok (b', e)) :
    b' = { b with timer := b'.timer } := by
  cases w with
  | task =>
      obtain ⟨r, -, hb⟩ := bind_eq_ok_iff.mp h
      cases hb
      rfl
  | expire =>
      obtain ⟨r, -, hb⟩ := bind_eq_ok_iff.mp h
      cases hb
      rfl

/-- A timer starts from rest only, and not with a negative timeout. -/
theorem timer_start_ok {t t' : Timer} {timeout : Int} (h : t.start false timeout = .ok t') :
    0 ≤ timeout ∧ t.isIdle false = true ∧ t'.timeout = timeout := by
  simp only [Timer.start] at h
  obtain ⟨_, htime, h⟩ := bind_eq_ok_iff.mp h
  obtain ⟨_, hidle, h⟩ := bind_eq_ok_iff.mp h
  refine ⟨gridAssert_eq_ok_iff.mp htime, gridAssert_eq_ok_iff.mp hidle, ?_⟩
  revert h
  cases t.state with
  | idle =>
      intro h
      obtain ⟨t₁, hexec, h⟩ := bind_eq_ok_iff.mp h
      simp only [Timer.execute] at hexec
      obtain ⟨_, -, hexec⟩ := bind_eq_ok_iff.mp hexec
      cases hexec
      cases h
      rfl
  | active => intro h; cases h
  | stopping => intro h; cases h

/-! ## Every run -/

/-- The timer is at rest, was started or was asked to stop. -/
theorem Runs.phase (h : Runs o k b) :
    b.timer.Quiet ∨ b.timer.Running ∨ b.timer.Stopping := by
  induction h with
  | init => exact Or.inl Timer.quiet_default
  | @start k b b' _ hstart ih =>
      obtain ⟨t, ht, rfl⟩ := start_eq_ok_iff.mp hstart
      obtain ⟨htime, hidle, -⟩ := timer_start_ok ht
      rcases ih with hquiet | hrunning | hstopping
      · obtain ⟨t', ht', hrunning⟩ := Timer.start_spec hquiet htime
        cases ht.symm.trans ht'
        exact Or.inr (Or.inl hrunning)
      · simp [Timer.isIdle, hrunning.1] at hidle
      · simp [Timer.isIdle, hstopping.1] at hidle
  | @stop k b b' _ hstop ih =>
      obtain ⟨t, ht, hb⟩ := bind_eq_ok_iff.mp hstop
      cases hb
      rcases ih with hquiet | hrunning | hstopping
      · rw [Timer.stop_of_not_active (by simp [hquiet.1])] at ht
        cases ht
        exact Or.inl hquiet
      · obtain ⟨t', ht', hstopping⟩ := Timer.stop_running hrunning
        cases ht.symm.trans ht'
        exact Or.inr (Or.inr hstopping)
      · rw [Timer.stop_of_not_active (by simp [hstopping.1])] at ht
        cases ht
        exact Or.inr (Or.inr hstopping)
  | @work k b b' w e _ hready hwork ih =>
      rcases ih with hquiet | hrunning | hstopping
      · exact absurd hready (not_ready_of_quiet hquiet w)
      · obtain ⟨b₁, e₁, hwork₁, hwaiting⟩ := work_waiting ⟨hrunning, Or.inl rfl⟩ hready
        cases hwork.symm.trans hwork₁
        exact Or.inr (Or.inl hwaiting.1)
      · obtain ⟨b₁, e₁, hwork₁, hending, -, -⟩ := work_stopping hstopping hready
        cases hwork.symm.trans hwork₁
        rcases hending with ⟨hstill, -⟩ | ⟨hquiet, -⟩
        · exact Or.inr (Or.inr hstill)
        · exact Or.inl hquiet

theorem Runs.quiet (h : Runs o k b) (hidle : b.isIdle false = true) : b.timer.Quiet := by
  rcases h.phase with hquiet | hrunning | hstopping
  · exact hquiet
  · simp [isIdle, Timer.isIdle, hrunning.1] at hidle
  · simp [isIdle, Timer.isIdle, hstopping.1] at hidle

/-- The two intervals stay what they were made with. -/
theorem Runs.limits (h : Runs o k b) : b.minivl = o.ivl ∧ b.maxivl = o.maxivl := by
  induction h with
  | init => exact ⟨rfl, rfl⟩
  | start _ hstart ih =>
      obtain ⟨t, -, rfl⟩ := start_eq_ok_iff.mp hstart
      exact ih
  | stop _ hstop ih =>
      rw [stop_timer hstop]
      exact ih
  | work _ _ hwork ih =>
      rw [work_timer hwork]
      exact ih

/-- The timeout that is started is the one `grid_backoff_start` computes. -/
theorem starts_iff {t : Int} : Starts o k t ↔
    ∃ b, Runs o k b ∧ b.timeout = t ∧ ∃ b', b.start false = .ok b' := by
  constructor
  · rintro ⟨b, b', hrun, hstart, rfl⟩
    obtain ⟨u, hu, rfl⟩ := start_eq_ok_iff.mp hstart
    exact ⟨b, hrun, (timer_start_ok hu).2.2.symm, _, hstart⟩
  · rintro ⟨b, hrun, rfl, b', hstart⟩
    refine ⟨b, b', hrun, hstart, ?_⟩
    obtain ⟨u, hu, rfl⟩ := start_eq_ok_iff.mp hstart
    exact (timer_start_ok hu).2.2

theorem timeout_le (b : Backoff) : b.timeout ≤ b.maxivl := by
  simp only [timeout]
  split
  · exact Int.le_refl _
  · next h => exact Int.not_lt.mp h

/-- A back-off that was asked to stop comes to rest. -/
theorem Runs.comes_to_rest (m : Nat) : ∀ {b : Backoff}, b.load ≤ m → Runs o k b →
    b.timer.Stopping → ∃ b', Runs o k b' ∧ b'.timer.Quiet ∧ b'.n = b.n := by
  induction m with
  | zero =>
      intro b hload hrun hstopping
      obtain ⟨b', e, -, -, -, hless⟩ := work_stopping hstopping (ready_of_stopping hstopping)
      omega
  | succ m ih =>
      intro b hload hrun hstopping
      have hready := ready_of_stopping hstopping
      obtain ⟨b', e, hwork, hending, he, hless⟩ := work_stopping hstopping hready
      have hrun' : Runs o k b' := hrun.work hready hwork
      have hn : b'.n = b.n := by rw [work_timer hwork]
      rcases he with rfl | rfl
      · obtain ⟨b'', hrun'', hquiet, hn'⟩ := ih (by omega) hrun' hending.nil
        exact ⟨b'', hrun'', hquiet, hn'.trans hn⟩
      · exact ⟨b', hrun', hending.of_last.1, hn⟩

/-- From rest to rest with one timeout. -/
theorem Runs.cycle (hrun : Runs o k b) (hquiet : b.timer.Quiet) (htime : 0 ≤ b.timeout) :
    ∃ b', Runs o (k + 1) b' ∧ b'.timer.Quiet ∧
      b'.n = if b.interval > b.maxivl then b.n else wrapInt (b.n * 2) := by
  obtain ⟨b₁, hstart, hwaiting⟩ := start_spec hquiet htime
  obtain ⟨b₂, hstop, hstopping⟩ := stop_waiting hwaiting
  obtain ⟨b₃, hrun₃, hquiet₃, hn⟩ :=
    Runs.comes_to_rest b₂.load (Nat.le_refl _) ((hrun.start hstart).stop hstop) hstopping.nil
  refine ⟨b₃, hrun₃, hquiet₃, ?_⟩
  rw [hn, stop_timer hstop]
  obtain ⟨t, -, rfl⟩ := start_eq_ok_iff.mp hstart
  rfl

/-! ## The counter -/

/-- With the counter at a power of two nothing wraps as long as the product is an `int`. -/
theorem interval_eq {m : Nat} (hn : b.n = 2 ^ m) (hmin : b.minivl = o.ivl) (hm : m ≤ 30)
    (hprod : o.product m < 2 ^ 31) :
    IsInt (b.n - 1) ∧ IsInt ((b.n - 1) * b.minivl) ∧ b.interval = o.product m := by
  have hpos : (0 : Int) < 2 ^ m := Int.pow_pos (by decide)
  have hpow : (2 : Int) ^ m ≤ 2 ^ 30 := pow_le_pow_right₀ (by decide) hm
  have hpred : IsInt (b.n - 1) := by
    rw [hn]
    constructor <;> omega
  have hexact : (b.n - 1) * b.minivl = o.product m := by rw [hn, hmin]; rfl
  have hproduct : IsInt ((b.n - 1) * b.minivl) := by
    rw [hexact]
    have hnonneg := o.product_nonneg m
    constructor <;> omega
  refine ⟨hpred, hproduct, ?_⟩
  rw [interval, wrapInt_of_isInt hpred, wrapInt_of_isInt hproduct, hexact]

theorem double_isInt {m : Nat} (hm : m < 30) : IsInt ((2 : Int) ^ m * 2) := by
  have hpos : (0 : Int) < 2 ^ m := Int.pow_pos (by decide)
  have hpow : (2 : Int) ^ m ≤ 2 ^ 29 := pow_le_pow_right₀ (by decide) (by omega)
  constructor <;> omega

end Backoff

/-- After `j` timeouts the product passes the maximum for the first time, and is an `int`. -/
structure ReconnectOptions.Peaks (o : ReconnectOptions) (j : Nat) : Prop where
  few : j ≤ 30
  passes : o.maximum < o.product j
  isInt : o.product j < 2 ^ 31
  first : ∀ i < j, o.product i ≤ o.maximum

/-- The maximum is not one to be ignored, and doubling passes it within `int`. -/
def ReconnectOptions.Fits (o : ReconnectOptions) : Prop :=
  ¬o.Ignored ∧ ∃ j ≤ 30, o.maximum < o.product j ∧ o.product j < 2 ^ 31

theorem ReconnectOptions.Fits.peaks {o : ReconnectOptions} (h : o.Fits) : ∃ j, o.Peaks j := by
  obtain ⟨-, j, hj, hover, hint⟩ := h
  have hex : ∃ i, o.maximum < o.product i := ⟨j, hover⟩
  have hle : Nat.find hex ≤ j := Nat.find_min' hex hover
  refine ⟨Nat.find hex, by omega, Nat.find_spec hex, ?_, ?_⟩
  · exact Int.lt_of_le_of_lt (o.product_mono hle) hint
  · intro i hi
    exact Int.not_lt.mp (Nat.find_min hex hi)

namespace Backoff

variable {o : ReconnectOptions} {b b' : Backoff} {k j : Nat}

/-- The counter doubles until the maximum is passed and stays there. -/
theorem Runs.count (hfits : ¬o.Ignored) (hj : o.Peaks j) (h : Runs o k b) :
    b.n = 2 ^ min k j := by
  induction h with
  | init => simp [Backoff.init]
  | @start k b b' hrun hstart ih =>
      obtain ⟨t, -, rfl⟩ := start_eq_ok_iff.mp hstart
      obtain ⟨hmin, hmax⟩ := hrun.limits
      have hprod : o.product (min k j) < 2 ^ 31 :=
        Int.lt_of_le_of_lt (o.product_mono (Nat.min_le_right k j)) hj.isInt
      have hfew := hj.few
      obtain ⟨-, -, hinterval⟩ := interval_eq ih hmin (by omega) hprod
      simp only [hinterval, hmax, ReconnectOptions.maxivl_eq_maximum hfits]
      rcases Nat.lt_or_ge k j with hlt | hge
      · rw [Nat.min_eq_left (Nat.le_of_lt hlt)] at ih ⊢
        rw [if_neg (Int.not_lt.mpr (hj.first k hlt)), ih,
          wrapInt_of_isInt (double_isInt (by omega)), Nat.min_eq_left hlt, Int.pow_succ]
      · rw [Nat.min_eq_right hge] at ih ⊢
        rw [if_pos hj.passes, ih, Nat.min_eq_right (by omega)]
  | stop _ hstop ih =>
      rw [stop_timer hstop]
      exact ih
  | work _ _ hwork ih =>
      rw [work_timer hwork]
      exact ih

/-- What the next timeout is, and that it is computed within `int`. -/
theorem Runs.next (hfits : ¬o.Ignored) (hj : o.Peaks j) (h : Runs o k b) :
    b.Exact ∧ b.timeout = min o.maximum (o.product k) := by
  have hn := h.count hfits hj
  obtain ⟨hmin, hmax⟩ := h.limits
  rw [ReconnectOptions.maxivl_eq_maximum hfits] at hmax
  have hprod : o.product (min k j) < 2 ^ 31 :=
    Int.lt_of_le_of_lt (o.product_mono (Nat.min_le_right k j)) hj.isInt
  have hfew := hj.few
  obtain ⟨hpred, hproduct, hinterval⟩ := interval_eq hn hmin (by omega) hprod
  rcases Nat.lt_or_ge k j with hlt | hge
  · have hle := hj.first k hlt
    rw [Nat.min_eq_left (Nat.le_of_lt hlt)] at hn hinterval
    refine ⟨⟨hpred, hproduct, ?_⟩, ?_⟩
    · intro _
      rw [hn]
      exact double_isInt (by omega)
    · rw [timeout, hinterval, hmax, if_neg (Int.not_lt.mpr hle), Int.min_eq_right hle]
  · have hover := hj.passes
    have hmono := o.product_mono hge
    rw [Nat.min_eq_right hge] at hinterval
    refine ⟨⟨hpred, hproduct, ?_⟩, ?_⟩
    · intro hnot
      rw [hinterval, hmax] at hnot
      exact absurd hover hnot
    · rw [timeout, hinterval, hmax, if_pos hover, Int.min_eq_left (by omega)]

theorem documented_of_fits (h : o.Fits) : Documented o := by
  obtain ⟨j, hj⟩ := h.peaks
  have hmax : 0 ≤ o.maximum := ReconnectOptions.maxivl_eq_maximum h.1 ▸ o.maxivl_nonneg
  have htimeout : ∀ k t, Starts o k t → t = min o.maximum (o.product k) := by
    intro k t ht
    obtain ⟨b, hrun, rfl, -⟩ := starts_iff.mp ht
    exact (hrun.next h.1 hj).2
  constructor
  · intro k b hrun hidle
    obtain ⟨hexact, htime⟩ := hrun.next h.1 hj
    have hnonneg : 0 ≤ b.timeout := by
      rw [htime]
      exact Int.le_min.mpr ⟨hmax, o.product_nonneg k⟩
    obtain ⟨b', hstart, -⟩ := start_spec (hrun.quiet hidle) hnonneg
    exact ⟨hexact, b', hstart⟩
  · exact htimeout
  · intro k t ht
    rw [htimeout k t ht]
    exact ⟨Int.le_min.mpr ⟨hmax, o.product_nonneg k⟩, Int.min_le_left _ _⟩
  · intro k l t u hkl ht hu
    rw [htimeout k t ht, htimeout l u hu]
    have hmono := o.product_mono hkl
    omega

/-! ## Where the documentation is not met -/

/-- In a documented run the next timeout can be started and does not leave `int`. -/
theorem Documented.ready (h : Documented o) (hrun : Runs o k b) (hquiet : b.timer.Quiet) :
    b.Exact ∧ 0 ≤ b.timeout ∧ b.timeout = min o.maximum (o.product k) := by
  have hidle : b.isIdle false = true := by simp [isIdle_quiet hquiet]
  obtain ⟨hexact, b', hstart⟩ := h.starts k b hrun hidle
  have ht : Starts o k b.timeout := starts_iff.mpr ⟨b, hrun, rfl, b', hstart⟩
  exact ⟨hexact, (h.bounds k _ ht).1, h.timeout k _ ht⟩

/-- A maximum below the first interval is not ignored. -/
theorem not_documented_of_ignored (h : o.Ignored) : ¬Documented o := by
  intro hdoc
  obtain ⟨hmaxivl, hmaximum⟩ := ReconnectOptions.maxivl_of_ignored h
  obtain ⟨-, htime, -⟩ := hdoc.ready Runs.init Timer.quiet_default
  obtain ⟨b, hrun, hquiet, -⟩ := Runs.init.cycle Timer.quiet_default htime
  obtain ⟨-, -, heq⟩ := hdoc.ready hrun hquiet
  have hle := timeout_le b
  have hone : o.product 1 = o.ivl := by simp [ReconnectOptions.product]
  rw [hrun.limits.2, hmaxivl, heq, hmaximum, hone, Int.min_self] at hle
  exact absurd h.2 (Int.not_lt.mpr hle)

/-- As long as the maximum is not passed the counter doubles. -/
theorem Documented.doubles (h : Documented o) (hmax : ¬o.Ignored) (k : Nat) (hk : k ≤ 30)
    (hle : ∀ i < k, o.product i ≤ o.maximum) :
    ∃ b, Runs o k b ∧ b.timer.Quiet ∧ b.n = 2 ^ k := by
  induction k with
  | zero => exact ⟨init o, Runs.init, Timer.quiet_default, rfl⟩
  | succ k ih =>
      obtain ⟨b, hrun, hquiet, hn⟩ := ih (by omega) fun i hi => hle i (Nat.lt_succ_of_lt hi)
      obtain ⟨-, htime, -⟩ := h.ready hrun hquiet
      obtain ⟨b', hrun', hquiet', hn'⟩ := hrun.cycle hquiet htime
      refine ⟨b', hrun', hquiet', ?_⟩
      have hprod := hle k (Nat.lt_succ_self k)
      have hmaxivl := ReconnectOptions.maxivl_eq_maximum hmax
      have hlt := o.maxivl_lt
      obtain ⟨-, -, hinterval⟩ := interval_eq hn hrun.limits.1 (by omega) (by omega)
      rw [hn', hinterval, hrun.limits.2, hmaxivl, if_neg (Int.not_lt.mpr hprod), hn,
        wrapInt_of_isInt (double_isInt (by omega)), Int.pow_succ]

/-- The counter leaves `int` unless the maximum is passed before. -/
theorem fits_of_documented (h : Documented o) : o.Fits := by
  have hmax : ¬o.Ignored := fun hign => not_documented_of_ignored hign h
  refine ⟨hmax, ?_⟩
  by_contra hnone
  -- no product passes the maximum: it would be an `int`, since the run computes it
  have hle : ∀ j ≤ 30, o.product j ≤ o.maximum := by
    intro j
    induction j using Nat.strong_induction_on with
    | _ j ih =>
        intro hj
        obtain ⟨b, hrun, hquiet, hn⟩ :=
          h.doubles hmax j hj fun i hi => ih i hi (by omega)
        have hproduct := (h.ready hrun hquiet).1.product
        rw [hn, hrun.limits.1] at hproduct
        by_contra hover
        exact hnone ⟨j, hj, Int.not_le.mp hover, hproduct.2⟩
  obtain ⟨b, hrun, hquiet, hn⟩ := h.doubles hmax 30 (by omega) fun i hi => hle i (by omega)
  have hmaxivl := ReconnectOptions.maxivl_eq_maximum hmax
  have hlt := o.maxivl_lt
  have hlast := hle 30 (by omega)
  obtain ⟨-, -, hinterval⟩ := interval_eq hn hrun.limits.1 (by omega) (by omega)
  have hdouble := (h.ready hrun hquiet).1.double (by
    rw [hinterval, hrun.limits.2, hmaxivl]
    exact Int.not_lt.mpr hlast)
  rw [hn] at hdouble
  exact absurd hdouble.2 (by decide)

/-- The timeouts are what the manual says if and only if the maximum is not below the first
interval and doubling passes it within `int`. -/
theorem documented_iff (o : ReconnectOptions) : Documented o ↔ o.Fits :=
  ⟨fits_of_documented, documented_of_fits⟩

/-- `GRID_RECONNECT_IVL` 100 with `GRID_RECONNECT_IVL_MAX` 50. -/
theorem not_documented : ¬∀ o : ReconnectOptions, Documented o := by
  intro hall
  let o : ReconnectOptions :=
    { ReconnectOptions.default with
      ivlMax := 50
      ivlMax_nonneg := by decide
      ivlMax_isInt := by constructor <;> decide }
  have hign : o.Ignored := by constructor <;> decide
  exact not_documented_of_ignored hign (hall o)

end Backoff

end GridMq.Transports
