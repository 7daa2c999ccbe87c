import GridMq.Core.SocketTable

set_option autoImplicit false

/-!
# Descriptors over whole runs

Every call keeps the stack of free descriptors (`Inv`), whatever other calls of
`grid_close` are in progress.  A new socket gets a descriptor that had none, and a creation
that fails leaves the table as it was.
-/

namespace GridMq.Core

open GridMq.Library

namespace SocketTable

variable {s s' : SocketTable} {domain protocol : Int} {init : Option Errno}
  {stat : Option Bool}

/-! ## One call -/

/-- A creation that fails changes nothing, and one that succeeds takes a free descriptor. -/
theorem createSocket_spec (h : s.Stacked) (hall : s.allocated = true) :
    (∃ e, s.createSocket domain protocol init = (s, .error e)) ∨
      ∃ s' fd, s.createSocket domain protocol init = (s', .ok fd) ∧ s.socks fd = none ∧
        s'.socks fd = some .opened ∧ s'.Stacked ∧ s'.allocated = true ∧ 0 < s'.nsocks := by
  unfold createSocket
  split
  · exact Or.inl ⟨_, rfl⟩
  · split
    · exact Or.inl ⟨_, rfl⟩
    · rename_i hfew
      obtain ⟨hfree, hstacked⟩ := h.pop (Nat.not_le.mp hfew)
      split
      · cases init with
        | some e => exact Or.inl ⟨_, rfl⟩
        | none =>
            refine Or.inr ⟨_, _, rfl, hfree, Function.update_self _ _ _, hstacked, hall, ?_⟩
            exact Nat.succ_pos _
      · exact Or.inl ⟨_, rfl⟩

/-- The limit is reported exactly when it is reached. -/
theorem createSocket_emfile (hdomain : domain = afSp ∨ domain = afSpRaw) :
    (s.createSocket domain protocol init).2 = .error .emfile ↔ gridMaxSockets ≤ s.nsocks := by
  have hknown : ¬(domain ≠ afSp ∧ domain ≠ afSpRaw) := by
    rintro ⟨h1, h2⟩
    exact hdomain.elim h1 h2
  unfold createSocket
  rw [if_neg hknown]
  by_cases hfull : gridMaxSockets ≤ s.nsocks
  · simp [hfull]
  · rw [if_neg hfull]
    simp only [hfull, iff_false]
    split
    · cases init <;> simp
    · simp

/-- The table with the socket for statistics. -/
def withStatistics : SocketTable := (fresh.createSocket afSp gridPub none).1

theorem withStatistics_eq : withStatistics = { fresh with
    socks := Function.update fresh.socks 0 (some .opened), nsocks := 1 } := by
  have hcreate : fresh.createSocket afSp gridPub none = ({ fresh with
      socks := Function.update fresh.socks 0 (some .opened), nsocks := 1 }, .ok 0) := by
    rw [createSocket, if_neg (by decide), if_neg (by decide)]
    simp only
    rw [if_pos (by decide)]
    rfl
  rw [withStatistics, hcreate]

theorem stacked_withStatistics : withStatistics.Stacked := by
  rcases @createSocket_spec _ afSp gridPub none stacked_fresh rfl
    with ⟨e, he⟩ | ⟨s', fd, heq, -, -, hstacked, -⟩
  · have hcount := congrArg (fun r => r.1.nsocks) he
    rw [show (fresh.createSocket afSp gridPub none).1 = withStatistics from rfl,
      withStatistics_eq] at hcount
    exact absurd hcount Nat.one_ne_zero
  · rw [withStatistics, heq]
    exact hstacked

/-- After the initialisation the table is the one it was, a fresh one, or one with the socket
for statistics. -/
theorem globalInit_spec (h : s.Inv) (hcall : s.globalInit stat = .ok s') :
    s'.Stacked ∧ s'.allocated = true ∧ (s.allocated = true → s' = s) ∧
      (s.allocated = false → s' = fresh ∧ stat = none ∨ s' = withStatistics ∧ stat = some true) := by
  unfold globalInit at hcall
  by_cases hall : s.allocated = true
  · rw [if_pos hall] at hcall
    obtain rfl := Except.ok.inj hcall
    exact ⟨h.table hall, hall, fun _ => rfl, fun hno => absurd (hall.symm.trans hno) (by simp)⟩
  · rw [if_neg hall] at hcall
    cases stat with
    | none =>
        obtain rfl := Except.ok.inj hcall
        exact ⟨stacked_fresh, rfl, fun hyes => absurd hyes hall, fun _ => Or.inl ⟨rfl, rfl⟩⟩
    | some created =>
        cases created with
        | false => exact absurd hcall (by simp)
        | true =>
            obtain rfl := Except.ok.inj hcall
            refine ⟨stacked_withStatistics, ?_, fun hyes => absurd hyes hall,
              fun _ => Or.inr ⟨rfl, rfl⟩⟩
            exact congrArg SocketTable.allocated withStatistics_eq

theorem inv_of_stacked (h : s.Stacked) (hall : s.allocated = true) (hpos : 0 < s.nsocks) :
    s.Inv :=
  ⟨fun _ => h, fun _ => hpos, fun hno => absurd (hall.symm.trans hno) (by simp)⟩

/-- The table goes when the last socket has gone. -/
theorem globalTerm_spec (h : s.Stacked) (hall : s.allocated = true) :
    ∃ s', s.globalTerm = .ok s' ∧ s'.Inv ∧ (0 < s.nsocks → s' = s) ∧
      (s.nsocks = 0 → s' = { zombie := s.zombie }) := by
  unfold globalTerm
  rw [gridAssert_pos hall, ok_bind]
  by_cases hpos : 0 < s.nsocks
  · rw [if_pos hpos]
    exact ⟨s, rfl, inv_of_stacked h hall hpos, fun _ => rfl, fun hzero => absurd hzero (by omega)⟩
  · rw [if_neg hpos]
    refine ⟨_, rfl, ⟨?_, ?_, fun _ => rfl⟩, fun hyes => absurd hyes hpos, fun _ => rfl⟩
    · exact fun hno => absurd hno (by simp)
    · exact fun hno => absurd hno (by simp)

/-- What `grid_socket` does to the table. -/
structure SocketSpec (s s' : SocketTable) (domain : Int) (stat : Option Bool)
    (rc : Except SocketError Nat) : Prop where
  inv : s'.Inv
  success : ∀ fd, rc = .ok fd → s.socks fd = none ∧ s'.socks fd = some .opened
  failure : ∀ e, rc = .error e →
    s' = s ∨ s.allocated = false ∧ stat = some true ∧ s' = withStatistics
  full : s.zombie = false → domain = afSp ∨ domain = afSpRaw →
    (rc = .error (.create .emfile) ↔ ∀ fd, fd < gridMaxSockets → s.socks fd ≠ none)

theorem gridSocket_spec (h : s.Inv) {rc : Except SocketError Nat}
    (hcall : s.gridSocket domain protocol stat init = .ok (s', rc)) :
    SocketSpec s s' domain stat rc := by
  unfold gridSocket at hcall
  by_cases hz : s.zombie = true
  · rw [if_pos hz] at hcall
    obtain ⟨rfl, rfl⟩ := Prod.mk.inj (Except.ok.inj hcall)
    exact ⟨h, fun fd hfd => absurd hfd (by simp), fun _ _ => Or.inl rfl,
      fun hno => absurd (hz.symm.trans hno) (by simp)⟩
  · rw [if_neg hz] at hcall
    obtain ⟨s₁, hinit, hcall⟩ := bind_eq_ok_iff.mp hcall
    obtain ⟨hstacked, hall, hsame, hnew⟩ := globalInit_spec h hinit
    -- the descriptors that are in use after the initialisation
    have hold : ∀ fd, s₁.socks fd = none → s.socks fd = none := by
      intro fd hfd
      by_cases hsall : s.allocated = true
      · rwa [hsame hsall] at hfd
      · rw [h.unallocated (by simpa using hsall)]
    have hfullIff : gridMaxSockets ≤ s₁.nsocks ↔
        ∀ fd, fd < gridMaxSockets → s.socks fd ≠ none := by
      by_cases hsall : s.allocated = true
      · rw [hsame hsall]
        exact (h.table hsall).full_iff
      · have hfree := h.unallocated (by simpa using hsall)
        have hfew : s₁.nsocks ≤ 1 := by
          rcases hnew (by simpa using hsall) with ⟨rfl, -⟩ | ⟨rfl, -⟩
          · exact Nat.zero_le 1
          · exact Nat.le_of_eq (congrArg SocketTable.nsocks withStatistics_eq)
        have hmax : gridMaxSockets = 512 := rfl
        constructor
        · intro hno
          omega
        · intro hused
          exact absurd (by rw [hfree]) (hused 0 (by decide))
    have hemfile : domain = afSp ∨ domain = afSpRaw →
        ((s₁.createSocket domain protocol init).2 = .error .emfile ↔
          ∀ fd, fd < gridMaxSockets → s.socks fd ≠ none) :=
      fun hdomain => (createSocket_emfile hdomain).trans hfullIff
    rcases createSocket_spec hstacked hall with ⟨e, he⟩ | ⟨s₂, fd, hfd, hfree, hopen, hst, hal, hpos⟩
    · rw [he] at hcall hemfile
      obtain ⟨s₂, hterm, hcall⟩ := bind_eq_ok_iff.mp hcall
      obtain ⟨rfl, rfl⟩ := Prod.mk.inj (Except.ok.inj hcall)
      obtain ⟨s₃, hterm', hinv, hkept, hgone⟩ := globalTerm_spec hstacked hall
      obtain rfl := Except.ok.inj (hterm.symm.trans hterm')
      refine ⟨hinv, fun fd hfd => absurd hfd (by simp), ?_, ?_⟩
      · intro _ _
        by_cases hsall : s.allocated = true
        · have heq := hsame hsall
          have hpos := h.used hsall
          rw [← heq] at hpos
          exact Or.inl ((hkept hpos).trans heq)
        · have hsall' : s.allocated = false := by simpa using hsall
          rcases hnew hsall' with ⟨rfl, -⟩ | ⟨rfl, hstat⟩
          · have hzombie : s.zombie = false := by simpa using hz
            have hempty := h.unallocated hsall'
            rw [hzombie] at hempty
            rw [hempty]
            exact Or.inl (hgone rfl)
          · refine Or.inr ⟨hsall', hstat, hkept ?_⟩
            rw [withStatistics_eq]
            exact Nat.one_pos
      · intro _ hdomain
        simpa using hemfile hdomain
    · rw [hfd] at hcall hemfile
      obtain ⟨rfl, rfl⟩ := Prod.mk.inj (Except.ok.inj hcall)
      refine ⟨inv_of_stacked hst hal hpos, ?_, fun e he => absurd he (by simp), ?_⟩
      · intro fd' hfd'
        obtain rfl := Except.ok.inj hfd'
        exact ⟨hold fd hfree, hopen⟩
      · intro _ hdomain
        simpa using hemfile hdomain

/-- Beginning to close a socket changes no descriptor. -/
theorem gridClose_spec (h : s.Inv) {n : Int} (hcall : s.gridClose n = .ok s') : s'.Inv := by
  unfold gridClose at hcall
  split at hcall
  · exact absurd hcall (by simp)
  · rename_i hall
    have hall' : s.allocated = true := by simpa using hall
    split at hcall
    · exact absurd hcall (by simp)
    · split at hcall
      · exact absurd hcall (by simp)
      · split at hcall
        · exact absurd hcall (by simp)
        · exact absurd hcall (by simp)
        · rename_i hopen
          obtain rfl := Except.ok.inj hcall
          have hstacked := h.table hall'
          refine inv_of_stacked ⟨hstacked.nodup, ?_, ?_, hstacked.few⟩ hall' (h.used hall')
          · intro fd
            change fd ∈ s.stack ↔ _
            rw [hstacked.free]
            simp only [Function.update_apply]
            by_cases hfd : fd = n.toNat
            · rw [if_pos hfd, hfd, hopen]
              simp
            · rw [if_neg hfd]
          · intro fd hfd
            simp only [Function.update_apply] at hfd
            split at hfd
            · rename_i heq
              rw [heq]
              exact hstacked.range _ (by rw [hopen]; simp)
            · exact hstacked.range fd hfd

/-- A table with a socket in it is allocated. -/
theorem Inv.allocated (h : s.Inv) {fd : Nat} (hused : s.socks fd ≠ none) : s.allocated = true := by
  by_contra hno
  rw [h.unallocated (by simpa using hno)] at hused
  exact hused rfl

/-- The end of a close frees its descriptor. -/
theorem closed_spec (h : s.Inv) {fd : Nat} (hen : s.socks fd = some .closing) :
    ∃ s', s.closed fd = .ok s' ∧ s'.Inv := by
  have hused : s.socks fd ≠ none := by
    rw [hen]
    simp
  have hall := h.allocated hused
  obtain ⟨s', hterm, hinv, -⟩ := globalTerm_spec ((h.table hall).push hused) hall
  exact ⟨s', hterm, hinv⟩

/-! ## Every run -/

theorem inv_init : ({} : SocketTable).Inv :=
  ⟨fun hno => absurd hno (by simp), fun hno => absurd hno (by simp), fun _ => rfl⟩

theorem inv_step {l : Label} (h : s.Inv) (hstep : system.step s l s') : s'.Inv := by
  obtain ⟨hen, hnext⟩ := hstep
  cases l with
  | socket domain protocol stat init =>
      obtain ⟨⟨s₁, rc⟩, hcall, hnext⟩ := bind_eq_ok_iff.mp hnext
      obtain rfl := Except.ok.inj hnext
      exact (gridSocket_spec h hcall).inv
  | close n =>
      simp only [next] at hnext
      split at hnext
      · obtain rfl := Except.ok.inj hnext
        exact h
      · rename_i hclose
        obtain rfl := Except.ok.inj hnext
        exact gridClose_spec h hclose
  | closed fd =>
      obtain ⟨s₁, hcall, hinv⟩ := closed_spec h hen
      obtain rfl := Except.ok.inj (hcall.symm.trans hnext)
      exact hinv
  | term =>
      obtain rfl := Except.ok.inj hnext
      refine ⟨?_, h.used, ?_⟩
      · intro hall
        have hstacked := h.table hall
        exact ⟨hstacked.nodup, hstacked.free, hstacked.range, hstacked.few⟩
      · intro hno
        have hempty := h.unallocated hno
        rw [hempty]

theorem inv_reachable (h : system.Reachable s) : s.Inv := by
  apply h.invariant
  · rintro s rfl
    exact inv_init
  · intro s l s' _ hinv hstep
    exact inv_step hinv hstep

/-- In every state of every run: the stack holds every descriptor without a socket once and
no other; a new socket gets a descriptor that had none, be it open or still being closed; a
creation that fails leaves the table as it was, or initialised with the socket for
statistics if it was not allocated; and a call with a known domain, before `grid_term`, meets
the limit exactly when every descriptor has a socket. -/
theorem descriptors_sound (h : system.Reachable s) :
    (s.allocated = true → ∀ fd, s.stack.count fd =
      if fd < gridMaxSockets ∧ s.socks fd = none then 1 else 0) ∧
    ∀ domain protocol stat init s' rc,
      s.gridSocket domain protocol stat init = .ok (s', rc) →
      (∀ fd, rc = .ok fd → s.socks fd = none ∧ s'.socks fd = some .opened) ∧
      (∀ e, rc = .error e →
        s' = s ∨ s.allocated = false ∧ stat = some true ∧ s' = withStatistics) ∧
      (s.zombie = false → domain = afSp ∨ domain = afSpRaw →
        (rc = .error (.create .emfile) ↔ ∀ fd, fd < gridMaxSockets → s.socks fd ≠ none)) := by
  have hinv := inv_reachable h
  constructor
  · intro hall fd
    have hstacked := hinv.table hall
    split
    · rename_i hfree
      exact List.count_eq_one_of_mem hstacked.nodup ((hstacked.free fd).mpr hfree)
    · rename_i hused
      exact List.count_eq_zero.mpr fun hin => hused ((hstacked.free fd).mp hin)
  · intro domain protocol stat init s' rc hcall
    have hspec := gridSocket_spec hinv hcall
    exact ⟨hspec.success, hspec.failure, hspec.full⟩

/-- After any number of calls that succeed, up to the limit. -/
theorem exists_sockets (k : Nat) (hk : k ≤ gridMaxSockets) :
    ∃ s, system.Reachable s ∧ s.zombie = false ∧ s.nsocks = k ∧
      (s.allocated = true ∨ k = 0 ∧ s.allocated = false) := by
  induction k with
  | zero => exact ⟨{}, .start rfl, rfl, rfl, Or.inr ⟨rfl, rfl⟩⟩
  | succ k ih =>
      obtain ⟨s, hreach, hz, hcount, halloc⟩ := ih (by omega)
      obtain ⟨s₁, hinit, hall, hk₁, hz₁⟩ : ∃ s₁, s.globalInit none = .ok s₁ ∧
          s₁.allocated = true ∧ s₁.nsocks = k ∧ s₁.zombie = false := by
        rcases halloc with hall | ⟨rfl, hno⟩
        · exact ⟨s, by rw [globalInit, if_pos hall], hall, hcount, hz⟩
        · exact ⟨fresh, by rw [globalInit, if_neg (by simp [hno])], rfl, rfl, rfl⟩
      have hcreate : s₁.createSocket afSp gridPub none = ({ s₁ with
          socks := Function.update s₁.socks (s₁.unused (gridMaxSockets - s₁.nsocks - 1))
            (some .opened)
          nsocks := s₁.nsocks + 1 }, .ok (s₁.unused (gridMaxSockets - s₁.nsocks - 1))) := by
        rw [createSocket, if_neg (by decide), if_neg (by omega)]
        simp only
        rw [if_pos (by decide)]
      have hnext : s.next (.socket afSp gridPub none none) = .ok { s₁ with
          socks := Function.update s₁.socks (s₁.unused (gridMaxSockets - s₁.nsocks - 1))
            (some .opened)
          nsocks := s₁.nsocks + 1 } := by
        rw [next, gridSocket, if_neg (by simp [hz]), hinit, ok_bind]
        simp only [hcreate, pure_eq_ok, ok_bind]
      exact ⟨_, hreach.step (l := .socket afSp gridPub none none) ⟨trivial, hnext⟩, hz₁,
        congrArg (· + 1) hk₁, Or.inl hall⟩

theorem exists_full : ∃ s, system.Reachable s ∧ s.zombie = false ∧ s.allocated = true ∧
    ∀ fd, fd < gridMaxSockets → s.socks fd ≠ none := by
  obtain ⟨s, hreach, hz, hcount, halloc⟩ := exists_sockets gridMaxSockets (Nat.le_refl _)
  rcases halloc with hall | ⟨hzero, -⟩
  · refine ⟨s, hreach, hz, hall, ?_⟩
    exact ((inv_reachable hreach).table hall).full_iff.mp (by omega)
  · exact absurd hzero (by decide)

theorem descriptors_sound_full : ∃ s s', system.Reachable s ∧
    s.gridSocket afSp gridPub none none = .ok (s', .error (.create .emfile)) := by
  obtain ⟨s, hreach, hz, hall, hused⟩ := exists_full
  obtain ⟨s', rc, hcall⟩ : ∃ s' rc, s.gridSocket afSp gridPub none none = .ok (s', rc) := by
    have hinv := inv_reachable hreach
    rcases @createSocket_spec _ afSp gridPub none (hinv.table hall) hall with ⟨e, he⟩ | ⟨s', fd, hfd, -⟩
    · obtain ⟨s', hterm, -⟩ := globalTerm_spec (hinv.table hall) hall
      refine ⟨s', .error (.create e), ?_⟩
      rw [gridSocket, if_neg (by simp [hz]), globalInit, if_pos hall, ok_bind]
      simp only [he, hterm, ok_bind, pure_eq_ok]
    · refine ⟨s', .ok fd, ?_⟩
      rw [gridSocket, if_neg (by simp [hz]), globalInit, if_pos hall, ok_bind]
      simp only [hfd, pure_eq_ok]
  have hemfile := ((descriptors_sound hreach).2 afSp gridPub none none s' rc hcall).2.2 hz
    (Or.inl rfl)
  exact ⟨s, s', hreach, by rw [hcall, hemfile.mpr hused]⟩

/-- With all descriptors in use, a call with an unknown domain does not meet the limit: the
domain is looked at first. -/
theorem not_descriptors_sound : ∃ s, system.Reachable s ∧ s.zombie = false ∧
    (∀ fd, fd < gridMaxSockets → s.socks fd ≠ none) ∧
    s.gridSocket 3 gridPub none none = .ok (s, .error (.create .eafnosupport)) := by
  obtain ⟨s, hreach, hz, hall, hused⟩ := exists_full
  refine ⟨s, hreach, hz, hused, ?_⟩
  have hpos := (inv_reachable hreach).used hall
  have hcreate : s.createSocket 3 gridPub none = (s, .error .eafnosupport) := by
    rw [createSocket, if_pos (by decide)]
  have hterm : s.globalTerm = .ok s := by
    rw [globalTerm, gridAssert_pos hall, ok_bind, if_pos hpos, pure_eq_ok]
  rw [gridSocket, if_neg (by simp [hz]), globalInit, if_pos hall, ok_bind]
  simp only [hcreate, hterm, ok_bind, pure_eq_ok]

end SocketTable

end GridMq.Core
