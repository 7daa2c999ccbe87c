import GridMq.Utils.Err
import Mathlib.Data.List.Basic

set_option autoImplicit false

/-!
# Polling of sockets (`src/core/poll.c`)

`grid_poll` turns its entries into an array for the `poll` of the system, with a descriptor for
each event that is asked for, and takes the results back from it in a second loop over the same
entries.
-/

namespace GridMq.Core

/-! ## The descriptors of a socket -/

/-- `GRID_POLLIN` and `GRID_POLLOUT`, and with them `GRID_RCVFD` and `GRID_SNDFD`. -/
inductive PollDir where
  | pollin | pollout
  deriving DecidableEq, Repr

/-- The bit of an event. -/
def PollDir.bit : PollDir → UInt16
  | .pollin => 1
  | .pollout => 2

/-- The errors of `grid_getsockopt` for these options. -/
inductive PollErrno where
  | ebadf | eterm | enoprotoopt
  deriving DecidableEq, Repr

/-- Their values; `ETERM` is not one of the system. -/
def PollErrno.num : PollErrno → Int
  | .ebadf => 9
  | .eterm => 156384712 + 53
  | .enoprotoopt => 92

/-- What of a socket the options depend on: its state, the flags of its type, and the two
descriptors. -/
structure PollSock where
  zombie : Bool := false
  norecv : Bool := false
  nosend : Bool := false
  rcvfd : Int := 0
  sndfd : Int := 0
  deriving DecidableEq, Repr

/-- `grid_sock_getopt`. -/
def PollSock.getopt (self : PollSock) (dir : PollDir) : Except PollErrno Int :=
  if self.zombie then .error .eterm
  else
    match dir with
    | .pollin => if self.norecv then .error .enoprotoopt else .ok self.rcvfd
    | .pollout => if self.nosend then .error .enoprotoopt else .ok self.sndfd

/-- What a socket number leads to: `grid_global_hold_socket`, and then the option. -/
def socketFd (held : Except PollErrno PollSock) (dir : PollDir) : Except PollErrno Int := do
  let sock ← held
  sock.getopt dir

/-- What a call of the library returns, with `errno` and the descriptor that it stores. -/
structure Getsockopt where
  rc : Int
  errno : Int
  fd : Int
  deriving DecidableEq, Repr

/-- `grid_getsockopt`: an error is left in `errno`. -/
def getsockopt (held : Except PollErrno PollSock) (dir : PollDir) : Getsockopt :=
  match socketFd held dir with
  | .error e => { rc := -1, errno := e.num, fd := 0 }
  | .ok fd => { rc := 0, errno := 0, fd := fd }

/-! ## The two loops -/

/-- `struct grid_pollfd`. -/
structure GridPollfd where
  fd : Int
  events : UInt16
  revents : UInt16 := 0
  deriving DecidableEq, Repr

/-- `struct pollfd`, before the system has set `revents`. -/
structure Pollfd where
  fd : Int
  /-- `POLLIN` -/
  events : UInt16 := 1
  deriving DecidableEq, Repr

/-- What the `poll` of the system comes to: it returns `rc`, and `revents` of each place. -/
structure SysPoll where
  rc : Int
  errno : Int
  revents : Nat → UInt16

/-- The sockets as they are when the first loop is at an entry. -/
abbrev PollSockets := Nat → PollDir → Int → Except PollErrno PollSock

/-- An event of an entry that is asked for: its descriptor is added. -/
def collectDir (socks : PollSockets) (i : Nat) (f : GridPollfd) (dir : PollDir)
    (pfd : List Pollfd) : Except Int (List Pollfd) :=
  if f.events &&& dir.bit ≠ 0 then
    let r := getsockopt (socks i dir f.fd) dir
    if r.rc < 0 then .error r.rc else .ok (pfd ++ [{ fd := r.fd }])
  else .ok pfd

/-- The first loop of `grid_poll` from the entry `i` on, or its `rc` when it fails. -/
def collect (socks : PollSockets) : Nat → List GridPollfd → List Pollfd →
    Except Int (List Pollfd)
  | _, [], pfd => .ok pfd
  | i, f :: fds, pfd => do
      let pfd ← collectDir socks i f .pollin pfd
      let pfd ← collectDir socks i f .pollout pfd
      collect socks (i + 1) fds pfd

/-- An event of an entry that was asked for: the result of its descriptor is taken.  `r` are the
events so far and the place in the array. -/
def scatterDir (revents : Nat → UInt16) (f : GridPollfd) (dir : PollDir) (r : UInt16 × Nat) :
    UInt16 × Nat :=
  if f.events &&& dir.bit ≠ 0 then
    (if revents r.2 &&& 1 ≠ 0 then r.1 ||| dir.bit else r.1, r.2 + 1)
  else r

/-- The second loop of `grid_poll` from the place `pos` on: the entries, and how many of them
have events. -/
def scatter (revents : Nat → UInt16) : Nat → List GridPollfd → List GridPollfd × Int
  | _, [] => ([], 0)
  | pos, f :: fds =>
      let r := scatterDir revents f .pollout (scatterDir revents f .pollin (0, pos))
      let rest := scatter revents r.2 fds
      ({ f with revents := r.1 } :: rest.1, if r.1 ≠ 0 then rest.2 + 1 else rest.2)

/-- What `grid_poll` comes to. -/
structure GridPoll where
  rc : Int
  errno : Int
  fds : List GridPollfd
  deriving DecidableEq, Repr

/-- `grid_poll`. -/
def gridPoll (socks : PollSockets) (poll : List Pollfd → SysPoll) (fds : List GridPollfd) :
    GridPoll :=
  match collect socks 0 fds [] with
  | .error rc => { rc := -1, errno := -rc, fds := fds }
  | .ok pfd =>
      let r := poll pfd
      if r.rc ≤ 0 then { rc := r.rc, errno := r.errno, fds := fds }
      else
        let res := scatter r.revents 0 fds
        { rc := res.2, errno := r.errno, fds := res.1 }

/-! ## What is asked for -/

/-- An event that is asked for, with its entry and the socket. -/
structure Want where
  entry : Nat
  dir : PollDir
  sock : Int
  deriving DecidableEq, Repr

/-- An event of an entry, when that asks for it. -/
def wantedDir (i : Nat) (f : GridPollfd) (dir : PollDir) : List Want :=
  if f.events &&& dir.bit ≠ 0 then [{ entry := i, dir := dir, sock := f.fd }] else []

/-- The events that are asked for from the entry `i` on. -/
def wanted : Nat → List GridPollfd → List Want
  | _, [] => []
  | i, f :: fds => wantedDir i f .pollin ++ (wantedDir i f .pollout ++ wanted (i + 1) fds)

/-- The descriptor for one of them. -/
def Want.fd (w : Want) (socks : PollSockets) : Except PollErrno Int :=
  socketFd (socks w.entry w.dir w.sock) w.dir

/-- The first error there is. -/
def refused (socks : PollSockets) : List Want → Option PollErrno
  | [] => none
  | w :: ws =>
      match w.fd socks with
      | .error e => some e
      | .ok _ => refused socks ws

/-- The array for the system, when no descriptor is refused. -/
def pollset (socks : PollSockets) (ws : List Want) : List Pollfd :=
  ws.filterMap fun w =>
    match w.fd socks with
    | .error _ => none
    | .ok fd => some { fd := fd }

/-- The system has signalled the descriptor for an event of an entry. -/
def signalled (revents : Nat → UInt16) (pos : Nat) (ws : List Want) (i : Nat) (dir : PollDir) :
    Bool :=
  (ws.zipIdx pos).any fun w => w.1.entry = i ∧ w.1.dir = dir ∧ revents w.2 &&& 1 ≠ 0

/-- The bits of some events. -/
def bitsOf (p : PollDir → Bool) : UInt16 :=
  (if p .pollin then PollDir.pollin.bit else 0) ||| if p .pollout then PollDir.pollout.bit else 0

/-- What `grid_poll` is for: when it returns a positive value, each entry has the events that it
asked for and whose descriptors were signalled, and as many entries as it returns have some; and
the error of a socket that has no such descriptor is left in `errno`. -/
structure PollsRight (socks : PollSockets) (poll : List Pollfd → SysPoll) (fds : List GridPollfd) :
    Prop where
  revents : 0 < (gridPoll socks poll fds).rc →
    (gridPoll socks poll fds).fds = fds.zipIdx.map fun f =>
      { f.1 with revents := bitsOf fun dir =>
          signalled (poll (pollset socks (wanted 0 fds))).revents 0 (wanted 0 fds) f.2 dir }
  count : 0 < (gridPoll socks poll fds).rc →
    (gridPoll socks poll fds).rc =
      ((gridPoll socks poll fds).fds.countP fun f => f.revents ≠ 0 : Nat)
  error : ∀ e, refused socks (wanted 0 fds) = some e →
    (gridPoll socks poll fds).rc = -1 ∧ (gridPoll socks poll fds).errno = e.num

/-! ## The first loop -/

variable {socks : PollSockets} {poll : List Pollfd → SysPoll} {fds : List GridPollfd}
  {revents : Nat → UInt16} {ws ws' : List Want} {pos : Nat}

theorem refused_append : refused socks (ws ++ ws') =
    (refused socks ws).or (refused socks ws') := by
  induction ws with
  | nil => rfl
  | cons w ws ih =>
      rw [List.cons_append, refused, refused]
      cases w.fd socks with
      | error e => rfl
      | ok fd => exact ih

theorem pollset_append : pollset socks (ws ++ ws') = pollset socks ws ++ pollset socks ws' :=
  List.filterMap_append ..

/-- A part of the first loop adds the descriptors of some events, or stops at one that is
refused. -/
def Collects (socks : PollSockets) (ws : List Want)
    (part : List Pollfd → Except Int (List Pollfd)) : Prop :=
  ∀ pfd, part pfd =
    match refused socks ws with
    | some _ => .error (-1)
    | none => .ok (pfd ++ pollset socks ws)

theorem Collects.then {part part' : List Pollfd → Except Int (List Pollfd)}
    (h : Collects socks ws part) (h' : Collects socks ws' part') :
    Collects socks (ws ++ ws') fun pfd => part pfd >>= part' := by
  intro pfd
  change (part pfd >>= part') = _
  rw [h pfd, refused_append, pollset_append]
  cases refused socks ws with
  | some e => rfl
  | none =>
      simp only [ok_bind, Option.none_or]
      rw [h' (pfd ++ pollset socks ws), List.append_assoc]

/-- One event of an entry. -/
theorem collects_collectDir (i : Nat) (f : GridPollfd) (dir : PollDir) :
    Collects socks (wantedDir i f dir) (collectDir socks i f dir) := by
  intro pfd
  rw [collectDir, wantedDir]
  by_cases hasked : f.events &&& dir.bit ≠ 0
  · rw [if_pos hasked, if_pos hasked, refused, pollset, getsockopt]
    simp only [Want.fd]
    cases hfd : socketFd (socks i dir f.fd) dir with
    | error e => rfl
    | ok fd => simp [refused, hfd]
  · rw [if_neg hasked, if_neg hasked]
    simp [refused, pollset]

/-- The first loop stops at the first descriptor that is refused, or makes the array. -/
theorem collects_collect (i : Nat) (fds : List GridPollfd) :
    Collects socks (wanted i fds) (collect socks i fds) := by
  induction fds generalizing i with
  | nil =>
      intro pfd
      simp [collect, wanted, refused, pollset]
  | cons f fds ih =>
      exact (collects_collectDir i f .pollin).then
        ((collects_collectDir i f .pollout).then (ih (i + 1)))

/-! ## The second loop -/

theorem signalled_append (i : Nat) (dir : PollDir) :
    signalled revents pos (ws ++ ws') i dir =
      (signalled revents pos ws i dir || signalled revents (pos + ws.length) ws' i dir) := by
  rw [signalled, signalled, signalled, List.zipIdx_append, List.any_append]

/-- Events of other entries say nothing about an entry. -/
theorem signalled_other {i : Nat} (dir : PollDir) (h : ∀ w ∈ ws, w.entry ≠ i) :
    signalled revents pos ws i dir = false := by
  rw [signalled, List.any_eq_false]
  intro w hw
  have hmem : w.1 ∈ ws := List.fst_mem_of_mem_zipIdx hw
  simp [h w.1 hmem]

theorem wantedDir_entry {i : Nat} {f : GridPollfd} {dir : PollDir} {w : Want}
    (h : w ∈ wantedDir i f dir) : w.entry = i := by
  rw [wantedDir] at h
  split at h
  · rw [List.mem_singleton.mp h]
  · exact absurd h List.not_mem_nil

theorem wanted_entry {i : Nat} {fds : List GridPollfd} {w : Want} (h : w ∈ wanted i fds) :
    i ≤ w.entry := by
  induction fds generalizing i with
  | nil => exact absurd h List.not_mem_nil
  | cons f fds ih =>
      rw [wanted, List.mem_append, List.mem_append] at h
      rcases h with hin | hout | hrest
      · exact Nat.le_of_eq (wantedDir_entry hin).symm
      · exact Nat.le_of_eq (wantedDir_entry hout).symm
      · exact Nat.le_of_succ_le (ih hrest)

/-- What is taken back for one event of an entry. -/
theorem scatterDir_eq (i : Nat) (f : GridPollfd) (dir : PollDir) (bits : UInt16) (pos : Nat) :
    scatterDir revents f dir (bits, pos) =
      (if signalled revents pos (wantedDir i f dir) i dir then bits ||| dir.bit else bits,
        pos + (wantedDir i f dir).length) := by
  rw [scatterDir, wantedDir]
  by_cases hasked : f.events &&& dir.bit ≠ 0
  · rw [if_pos hasked, if_pos hasked]
    simp [signalled]
  · rw [if_neg hasked, if_neg hasked]
    simp [signalled]

/-- An event of an entry does not tell of its other one. -/
theorem signalled_wantedDir {i : Nat} {f : GridPollfd} {dir dir' : PollDir} (h : dir ≠ dir') :
    signalled revents pos (wantedDir i f dir) i dir' = false := by
  rw [wantedDir]
  split
  · simp [signalled, h]
  · simp [signalled]

/-- What is taken back for an entry is what was signalled for it. -/
theorem bits_eq {rest : List Want} {i : Nat} (f : GridPollfd) (pos : Nat)
    (hrest : ∀ w ∈ rest, w.entry ≠ i) :
    scatterDir revents f .pollout (scatterDir revents f .pollin (0, pos)) =
      (bitsOf fun dir => signalled revents pos
          (wantedDir i f .pollin ++ (wantedDir i f .pollout ++ rest)) i dir,
        pos + (wantedDir i f .pollin).length + (wantedDir i f .pollout).length) := by
  have hin : signalled revents pos (wantedDir i f .pollin ++ (wantedDir i f .pollout ++ rest)) i
      .pollin = signalled revents pos (wantedDir i f .pollin) i .pollin := by
    have hnot : signalled revents (pos + (wantedDir i f .pollin).length) (wantedDir i f .pollout) i
        .pollin = false := signalled_wantedDir (by simp)
    rw [signalled_append, signalled_append, hnot, signalled_other .pollin hrest, Bool.or_false,
      Bool.or_false]
  have hout : signalled revents pos (wantedDir i f .pollin ++ (wantedDir i f .pollout ++ rest)) i
      .pollout = signalled revents (pos + (wantedDir i f .pollin).length)
        (wantedDir i f .pollout) i .pollout := by
    have hnot : signalled revents pos (wantedDir i f .pollin) i .pollout = false :=
      signalled_wantedDir (by simp)
    rw [signalled_append, signalled_append, hnot, signalled_other .pollout hrest, Bool.or_false,
      Bool.false_or]
  rw [scatterDir_eq i, scatterDir_eq i, bitsOf, hin, hout]
  cases signalled revents pos (wantedDir i f .pollin) i .pollin <;>
    cases signalled revents (pos + (wantedDir i f .pollin).length)
      (wantedDir i f .pollout) i .pollout <;> rfl

/-- The second loop gives each entry what was signalled for it. -/
theorem scatter_revents (pos i : Nat) (fds : List GridPollfd) :
    (scatter revents pos fds).1 = (fds.zipIdx i).map fun f =>
      { f.1 with revents := bitsOf fun dir => signalled revents pos (wanted i fds) f.2 dir } := by
  induction fds generalizing pos i with
  | nil => rfl
  | cons f fds ih =>
      have hlater : ∀ w ∈ wanted (i + 1) fds, w.entry ≠ i := fun w hw =>
        Nat.ne_of_gt (wanted_entry hw)
      rw [scatter, bits_eq f pos hlater, List.zipIdx_cons, List.map_cons, wanted]
      refine congrArg (_ :: ·) ?_
      simp only
      rw [ih _ (i + 1)]
      refine List.map_congr_left fun g hg => ?_
      have hle : i + 1 ≤ g.2 := List.le_snd_of_mem_zipIdx hg
      have hother : ∀ dir, ∀ w ∈ wantedDir i f dir, w.entry ≠ g.2 := by
        intro dir w hw
        rw [wantedDir_entry hw]
        omega
      have hsame : ∀ dir, signalled revents pos (wantedDir i f .pollin ++
          (wantedDir i f .pollout ++ wanted (i + 1) fds)) g.2 dir =
          signalled revents (pos + (wantedDir i f .pollin).length +
            (wantedDir i f .pollout).length) (wanted (i + 1) fds) g.2 dir := by
        intro dir
        rw [signalled_append, signalled_append, signalled_other dir (hother .pollin),
          signalled_other dir (hother .pollout), Bool.false_or, Bool.false_or]
      simp only [hsame]

/-- It counts the entries that get something. -/
theorem scatter_count (pos : Nat) (fds : List GridPollfd) :
    (scatter revents pos fds).2 =
      ((scatter revents pos fds).1.countP fun f => f.revents ≠ 0 : Nat) := by
  induction fds generalizing pos with
  | nil => rfl
  | cons f fds ih =>
      rw [scatter, List.countP_cons]
      simp only [ih]
      split
      · rename_i hsome
        simp [hsome]
      · rename_i hnone
        simp [hnone]

/-! ## What it comes to -/

/-- `grid_poll` does what it is for unless a descriptor is refused: then it reports `EPERM`,
whatever the error was. -/
theorem polls_iff (socks : PollSockets) (poll : List Pollfd → SysPoll) (fds : List GridPollfd) :
    PollsRight socks poll fds ↔ refused socks (wanted 0 fds) = none := by
  have hcollects : Collects socks (wanted 0 fds) (collect socks 0 fds) := collects_collect 0 fds
  have hcollect := hcollects []
  constructor
  · intro h
    cases hrefused : refused socks (wanted 0 fds) with
    | none => rfl
    | some e =>
        obtain ⟨-, herrno⟩ := h.error e hrefused
        rw [hrefused] at hcollect
        have heperm : (gridPoll socks poll fds).errno = 1 := by
          rw [gridPoll, hcollect]
          rfl
        rw [heperm] at herrno
        cases e <;> exact absurd herrno (by decide)
  · intro hnone
    rw [hnone, List.nil_append] at hcollect
    have hcall : gridPoll socks poll fds =
        let r := poll (pollset socks (wanted 0 fds))
        if r.rc ≤ 0 then { rc := r.rc, errno := r.errno, fds := fds }
        else
          { rc := (scatter r.revents 0 fds).2, errno := r.errno
            fds := (scatter r.revents 0 fds).1 } := by
      rw [gridPoll, hcollect]
    simp only at hcall
    refine ⟨?_, ?_, ?_⟩
    · intro hpos
      rw [hcall] at hpos ⊢
      split
      · rename_i hrc
        rw [if_pos hrc] at hpos
        exact absurd hpos (by simpa using hrc)
      · exact scatter_revents 0 0 fds
    · intro hpos
      rw [hcall] at hpos ⊢
      split
      · rename_i hrc
        rw [if_pos hrc] at hpos
        exact absurd hpos (by simpa using hrc)
      · exact scatter_count 0 fds
    · intro e he
      rw [hnone] at he
      exact absurd he (by simp)

/-- A socket that is not open: the error would be `EBADF`. -/
theorem not_polls :
    ¬ PollsRight (fun _ _ _ => .error .ebadf)
      (fun _ => { rc := 0, errno := 0, revents := fun _ => 0 }) [{ fd := 7, events := 1 }] := by
  intro h
  obtain ⟨-, herrno⟩ := h.error .ebadf rfl
  exact absurd herrno (by decide)

end GridMq.Core
