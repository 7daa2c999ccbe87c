import GridMq.Utils.Err

set_option autoImplicit false

/-!
# What an endpoint tells its socket (`src/core/epbase.c`, `src/core/ep.c`, `src/core/sock.c`)

The statistics of a socket, as far as one endpoint has contributed to them, and the last
error of the endpoint.
-/

namespace GridMq.Transports

/-- The `GRID_STAT_*` that endpoints count. -/
inductive Stat where
  | establishedConnections
  | acceptedConnections
  | droppedConnections
  | brokenConnections
  | connectErrors
  | acceptErrors
  | inprogressConnections
  | currentEpErrors
  deriving DecidableEq, Repr

/-- `INT_MAX`. -/
def intMax : Int := 2147483647

/-- The counters, and the `last_errno` of `struct grid_ep`. -/
structure EpStat where
  establishedConnections : Int := 0
  acceptedConnections : Int := 0
  droppedConnections : Int := 0
  brokenConnections : Int := 0
  connectErrors : Int := 0
  acceptErrors : Int := 0
  inprogressConnections : Int := 0
  currentEpErrors : Int := 0
  lastErrno : Int := 0
  deriving DecidableEq, Repr

namespace EpStat

/-- `grid_sock_stat_increment`. -/
def increment (self : EpStat) (name : Stat) (n : Int) : Except Abort EpStat :=
  match name with
  | .establishedConnections => do
      gridAssert (n > 0)
      return { self with establishedConnections := self.establishedConnections + n }
  | .acceptedConnections => do
      gridAssert (n > 0)
      return { self with acceptedConnections := self.acceptedConnections + n }
  | .droppedConnections => do
      gridAssert (n > 0)
      return { self with droppedConnections := self.droppedConnections + n }
  | .brokenConnections => do
      gridAssert (n > 0)
      return { self with brokenConnections := self.brokenConnections + n }
  | .connectErrors => do
      gridAssert (n > 0)
      return { self with connectErrors := self.connectErrors + n }
  | .acceptErrors => do
      gridAssert (n > 0)
      return { self with acceptErrors := self.acceptErrors + n }
  | .inprogressConnections => do
      gridAssert (n > 0 ∨ self.inprogressConnections ≥ -n)
      gridAssert (n < intMax ∧ n > -intMax)
      return { self with inprogressConnections := self.inprogressConnections + n }
  | .currentEpErrors => do
      gridAssert (n > 0 ∨ self.currentEpErrors ≥ -n)
      gridAssert (n < intMax ∧ n > -intMax)
      return { self with currentEpErrors := self.currentEpErrors + n }

/-- `grid_ep_set_error`. -/
def setError (self : EpStat) (errnum : Int) : Except Abort EpStat :=
  if self.lastErrno = errnum then .ok self
  else do
    let self ← if self.lastErrno = 0 then self.increment .currentEpErrors 1 else .ok self
    return { self with lastErrno := errnum }

/-- `grid_ep_clear_error`. -/
def clearError (self : EpStat) : Except Abort EpStat :=
  if self.lastErrno = 0 then .ok self
  else do
    let self ← self.increment .currentEpErrors (-1)
    return { self with lastErrno := 0 }

/-! ## Counters that fit the endpoint -/

/-- The endpoint has counted the `n` attempts it has in progress, and its error. -/
structure Counts (st : EpStat) (n : Int) : Prop where
  inprogress : n ≤ st.inprogressConnections
  errors : 0 ≤ st.currentEpErrors
  error : st.lastErrno ≠ 0 → 1 ≤ st.currentEpErrors

variable {st : EpStat} {n : Int}

theorem counts_default : Counts {} 0 :=
  ⟨Int.le_refl 0, Int.le_refl 0, fun h => absurd rfl h⟩

/-- Counting an event. -/
theorem Counts.event (h : st.Counts n) (name : Stat) (hprogress : name ≠ .inprogressConnections)
    (herrors : name ≠ .currentEpErrors) :
    ∃ st', st.increment name 1 = .ok st' ∧ st'.Counts n := by
  cases name with
  | inprogressConnections => exact absurd rfl hprogress
  | currentEpErrors => exact absurd rfl herrors
  | _ => exact ⟨_, rfl, h.inprogress, h.errors, h.error⟩

/-- An attempt begins. -/
theorem Counts.begin (h : st.Counts n) :
    ∃ st', st.increment .inprogressConnections 1 = .ok st' ∧ st'.Counts (n + 1) :=
  ⟨_, rfl, Int.add_le_add_right h.inprogress 1, h.errors, h.error⟩

/-- An attempt ends. -/
theorem Counts.finish (h : st.Counts (n + 1)) (hn : 0 ≤ n) :
    ∃ st', st.increment .inprogressConnections (-1) = .ok st' ∧ st'.Counts n := by
  have hle := h.inprogress
  refine ⟨{ st with inprogressConnections := st.inprogressConnections + -1 }, ?_, ?_,
    h.errors, h.error⟩
  · have hge : (-1 : Int) > 0 ∨ st.inprogressConnections ≥ - -1 := by omega
    simp only [increment, gridAssert_pos hge, ok_bind, pure_eq_ok]
    rfl
  · simp only
    omega

theorem Counts.setError (h : st.Counts n) (errnum : Int) :
    ∃ st', st.setError errnum = .ok st' ∧ st'.Counts n := by
  have herrors := h.errors
  unfold EpStat.setError
  split
  · exact ⟨st, rfl, h⟩
  · split
    · refine ⟨_, rfl, h.inprogress, ?_, fun _ => ?_⟩
      · simp only
        omega
      · simp only
        omega
    · rename_i hlast
      exact ⟨_, rfl, h.inprogress, h.errors, fun _ => h.error hlast⟩

theorem Counts.clearError (h : st.Counts n) :
    ∃ st', st.clearError = .ok st' ∧ st'.Counts n := by
  unfold EpStat.clearError
  split
  · exact ⟨st, rfl, h⟩
  · rename_i hlast
    have herror := h.error hlast
    refine ⟨{ st with currentEpErrors := st.currentEpErrors + -1, lastErrno := 0 }, ?_,
      h.inprogress, ?_, fun h => absurd rfl h⟩
    · have hge : (-1 : Int) > 0 ∨ st.currentEpErrors ≥ - -1 := by omega
      simp only [increment, gridAssert_pos hge, ok_bind, pure_eq_ok]
      rfl
    · simp only
      omega

end EpStat

end GridMq.Transports
