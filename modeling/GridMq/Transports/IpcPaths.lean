import GridMq.Transports.BoundAccepts
import GridMq.Transports.EndpointCreation

set_option autoImplicit false

/-!
# The paths of IPC endpoints (`src/core/global.c`, `src/transports/ipc/bipc.c`, `cipc.c`)

An address is limited to the size of a socket address in general, and is put into `sun_path` in
each attempt to listen or to connect, which has less room.
-/

namespace GridMq.Transports

open GridMq.Library

/-! ## Endpoints that listen -/

/-- The address can be made in all attempts of a bound endpoint. -/
def ListensSafely (addr : List UInt8) : Prop :=
  ∀ (minivl maxivl : Int) (s : Bound Unit) (l : Bound.Label Unit LeftoverAnswers),
    (Bound.system (bipc addr) minivl maxivl).Reachable s → s.Enabled l → s.Parses (bipc addr) l

theorem listensSafely {addr : List UInt8} (h : addr.length < sunPathSize) :
    ListensSafely addr := by
  intro minivl maxivl s l hreach hen
  apply Bound.parses_of_resolve (Bound.inv_of_reachable hreach) hen
  intro os _
  obtain ⟨path, hpath, -⟩ := sunPath_complete h
  simp only [bipc, hpath, ok_bind, pure_eq_ok]

/-- The first attempt fails with an address that is too long. -/
theorem not_listensSafely {addr : List UInt8} (h : ¬addr.length < sunPathSize) :
    ¬ListensSafely addr := by
  intro hall
  let s : Bound Unit := { option := (), retry := { minivl := 100, maxivl := 100 } }
  let l : Bound.Label Unit LeftoverAnswers := .create { prep := {} }
  have hinit : (Bound.system (bipc addr) 100 100).Reachable s := .start ⟨(), rfl⟩
  have hen : s.Enabled l := ⟨rfl, rfl⟩
  have hresolve : (bipc addr).resolve () ({} : LeftoverAnswers) = .error .assertion := by
    simp only [bipc, sunPath_long h]
    rfl
  have hfails : s.next (bipc addr) l = .error ⟨.address, .assertion⟩ := by
    show (Bound.startListening (bipc addr) { s with created := true } { prep := {} } >>=
      fun self => pure { self with fsm := .active }) = _
    simp only [Bound.startListening, s, hresolve, Site.call_error]
    rfl
  exact hall 100 100 s l hinit hen _ hfails rfl

/-! ## Endpoints that connect -/

namespace Cipc

variable {s s' : Cipc} {addr : List UInt8} {os : Answers} {l : Label}

/-- The endpoint with another address string. -/
def withAddr (s : Cipc) (addr : List UInt8) : Cipc := { s with addr := addr }

/-- The check of the length ends the process in a step: with a shorter address it goes on. -/
def LengthFails (s : Cipc) (l : Label) : Prop :=
  (∃ e, s.next l = .error e) ∧
    ∃ addr s', addr.length < sunPathSize ∧ (s.withAddr addr).next l = .ok s'

/-- Two calls come to the same, but for the address of the endpoint. -/
def Agree (addr : List UInt8) (x y : Except Abort Cipc) : Prop :=
  y = x.map fun s => s.withAddr addr

theorem Agree.ok (s : Cipc) : Agree addr (.ok s) (.ok (s.withAddr addr)) := rfl

theorem Agree.error (e : Abort) : Agree addr (.error e) (.error e) := rfl

theorem Agree.ite {p : Prop} [Decidable p] {x x' y y' : Except Abort Cipc} (h : Agree addr x y)
    (h' : Agree addr x' y') : Agree addr (if p then x else x') (if p then y else y') := by
  split
  · exact h
  · exact h'

/-- A call that has nothing to do with the address comes first. -/
theorem Agree.after {β : Type} {x : Except Abort β} {f g : β → Except Abort Cipc}
    (h : ∀ b, Agree addr (f b) (g b)) : Agree addr (x >>= f) (x >>= g) := by
  cases x with
  | error e => rfl
  | ok b => exact h b

/-- One call after the other. -/
theorem Agree.bind {x y : Except Abort Cipc} {f g : Cipc → Except Abort Cipc} (h : Agree addr x y)
    (hrest : ∀ s, Agree addr (f s) (g (s.withAddr addr))) : Agree addr (x >>= f) (y >>= g) := by
  subst h
  cases x with
  | error e => rfl
  | ok s => exact hrest s

theorem agree_startConnecting (hs : s.addr.length < sunPathSize)
    (haddr : addr.length < sunPathSize) :
    Agree addr (s.startConnecting os) ((s.withAddr addr).startConnecting os) := by
  have haddr' : (s.withAddr addr).addr.length < sunPathSize := haddr
  unfold startConnecting
  simp only [gridAssert_pos hs, gridAssert_pos haddr', ok_bind]
  refine Agree.after fun r => Agree.ite (Agree.after fun _ => Agree.ok _) ?_
  exact Agree.after fun _ => Agree.after fun _ => Agree.after fun _ => Agree.after fun _ =>
    Agree.ok _

theorem agree_handler (e : Event) (hs : s.addr.length < sunPathSize)
    (haddr : addr.length < sunPathSize) :
    Agree addr (s.handler os e) ((s.withAddr addr).handler os e) := by
  obtain ⟨a, fsm, state, conn, created, attempts, reports⟩ := s
  cases state with
  | cycle state =>
      refine Agree.after fun r => ?_
      cases r.2 with
      | some state => exact Agree.ok _
      | none => exact agree_startConnecting hs haddr
  | _ => exact Agree.error _

theorem agree_shutdownStopping : Agree addr s.shutdownStopping (s.withAddr addr).shutdownStopping :=
  Agree.ite (Agree.after fun _ => Agree.ok _) (Agree.ok _)

theorem agree_shutdownSipc : Agree addr s.shutdownSipc (s.withAddr addr).shutdownSipc :=
  Agree.ite (Agree.after fun _ => agree_shutdownStopping) (Agree.ok _)

theorem agree_shutdown : Agree addr s.shutdown (s.withAddr addr).shutdown := by
  obtain ⟨a, fsm, state, conn, created, attempts, reports⟩ := s
  cases state with
  | stoppingSipcFinal => exact agree_shutdownSipc
  | stopping => exact agree_shutdownStopping
  | _ => exact Agree.error _

theorem agree_create (hs : s.addr.length < sunPathSize) (haddr : addr.length < sunPathSize) :
    Agree addr (s.create os) ((s.withAddr addr).create os) := by
  obtain ⟨a, fsm, state, conn, created, attempts, reports⟩ := s
  refine Agree.after fun _ => ?_
  cases state with
  | idle =>
      exact Agree.bind
        (agree_startConnecting (s := ⟨a, fsm, .idle, conn, true, attempts, reports⟩) hs haddr)
        fun s => Agree.ok { s with fsm := .active }
  | _ => exact Agree.error _

theorem agree_stop : Agree addr s.stop (s.withAddr addr).stop :=
  Agree.ite (Agree.after fun _ => agree_shutdownSipc) (Agree.ok _)

theorem agree_deliver (hs : s.addr.length < sunPathSize) (haddr : addr.length < sunPathSize) :
    Agree addr (s.deliver os) ((s.withAddr addr).deliver os) := by
  unfold deliver
  have hconn : (s.withAddr addr).conn = s.conn := rfl
  rw [hconn]
  cases s.conn.events.head? with
  | none => exact Agree.ok _
  | some e => exact Agree.ite agree_shutdown (agree_handler e hs haddr)

/-- No step depends on the address but for its length. -/
theorem agree_next (l : Label) (hs : s.addr.length < sunPathSize)
    (haddr : addr.length < sunPathSize) : Agree addr (s.next l) ((s.withAddr addr).next l) := by
  cases l with
  | create os => exact agree_create hs haddr
  | stop => exact agree_stop
  | deliver os => exact agree_deliver hs haddr
  | conn l => exact Agree.after fun _ => Agree.ok _

/-- The address stays what the endpoint was created with. -/
theorem addr_reachable {minivl maxivl : Int} (h : addr.length < sunPathSize)
    (hreach : (system addr minivl maxivl).Reachable s) : s.addr = addr := by
  refine hreach.invariant (P := fun s => s.addr = addr) ?_ ?_
  · rintro s rfl
    rfl
  · intro s l s' _ hs hstep
    have hshort : s.addr.length < sunPathSize := hs ▸ h
    have hagree : s.next l = (s.next l).map fun s₁ => s₁.withAddr s.addr :=
      agree_next l hshort hshort
    have hnext : s.next l = .ok s' := hstep.2
    rw [hnext] at hagree
    exact (congrArg Cipc.addr (Except.ok.inj hagree)).trans hs

end Cipc

/-- The length does not end the process in any attempt of a connecting endpoint. -/
def ConnectsSafely (addr : List UInt8) : Prop :=
  ∀ (minivl maxivl : Int) (s : Cipc) (l : Cipc.Label),
    (Cipc.system addr minivl maxivl).Reachable s → s.Enabled l → ¬s.LengthFails l

theorem connectsSafely {addr : List UInt8} (h : addr.length < sunPathSize) :
    ConnectsSafely addr := by
  rintro minivl maxivl s l hreach - ⟨⟨e, he⟩, addr', s', haddr', hs'⟩
  have hs : s.addr.length < sunPathSize := Cipc.addr_reachable h hreach ▸ h
  have hagree : (s.withAddr addr').next l = (s.next l).map _ := Cipc.agree_next l hs haddr'
  rw [he, hs'] at hagree
  cases hagree

theorem not_connectsSafely {addr : List UInt8} (h : ¬addr.length < sunPathSize) :
    ¬ConnectsSafely addr := by
  intro hall
  let s : Cipc := { addr := addr, conn := { retry := { minivl := 100, maxivl := 100 } } }
  have hfails : s.next (.create {}) = .error .assertion := by
    have hcheck : gridAssert (addr.length < sunPathSize) = .error .assertion := if_neg h
    show (gridAssert (addr.length < sunPathSize) >>= _) >>= _ = _
    rw [hcheck]
    rfl
  have hshort : ∃ s', (s.withAddr []).next (.create {}) = .ok s' := ⟨_, rfl⟩
  obtain ⟨s', hs'⟩ := hshort
  exact hall 100 100 s (.create {}) (.start rfl) rfl
    ⟨⟨_, hfails⟩, [], s', by decide, hs'⟩

/-! ## Addresses -/

/-- All attempts of an endpoint build the whole path. -/
structure BuildsPath (bind : Bool) (addr : List UInt8) : Prop where
  attempts : if bind = true then ListensSafely addr else ConnectsSafely addr
  complete : ∃ path, sunPath addr = .ok path ∧ IsComplete addr path

theorem buildsPath_iff (bind : Bool) (addr : List UInt8) :
    BuildsPath bind addr ↔ addr.length < sunPathSize := by
  constructor
  · intro h
    by_contra hlong
    have hattempts := h.attempts
    cases bind with
    | true => exact not_listensSafely hlong hattempts
    | false => exact not_connectsSafely hlong hattempts
  · intro h
    refine ⟨?_, sunPath_complete h⟩
    cases bind with
    | true => exact listensSafely h
    | false => exact connectsSafely h

variable {σ : Type}

/-- An address does not end the process by what its path is built from: no endpoint is left
behind, or the one that was made builds the whole path in all its attempts.  What a bound one does
with a file that it finds at the path (`unlinkLeftover`) is left out. -/
def Survives (env : CreateEnv σ) (s : CreateState σ) (addr : List UInt8) (bind : Bool) : Prop :=
  ∃ s' rc, globalCreateEp env s (some addr) bind = .ok (s', rc) ∧
    (rc < 0 ∧ s'.eps = s.eps ∨
      ∃ ep : SockEp, s'.eps.getLast? = some ep ∧ rc = ep.eid ∧ BuildsPath bind ep.addr)

/-- The ipc transport accepts what it is handed. -/
theorem globalCreateEp_ipc (env : CreateEnv σ) (s : CreateState σ) {addr rest : List UInt8}
    (bind : Bool) (hlength : addr.length < sockaddrMax)
    (hsplit : splitProtocol addr = some (TransportKind.ipc.name, rest)) :
    ∃ (s' : CreateState σ) (ep : SockEp),
      globalCreateEp env s (some addr) bind = .ok (s', (ep.eid : Int)) ∧
        s'.eps.getLast? = some ep ∧ ep.addr = rest := by
  have hparts := splitProtocol_some hsplit
  have hrest : rest.length ≤ sockaddrMax := by
    rw [hparts, List.length_append, List.length_cons, List.length_cons, List.length_cons] at hlength
    omega
  have hcreate : globalCreateEp env s (some addr) bind = _ := if_neg (Nat.not_le.mpr hlength)
  rw [hsplit] at hcreate
  obtain ⟨s₁, epbase, hepbase⟩ : ∃ s₁ epbase,
      TransportKind.create env (s.alloc .ep).1 bind rest .ipc = .ok (s₁, .ok epbase) := by
    cases bind with
    | true => exact ⟨_, _, rfl⟩
    | false => exact ⟨_, _, rfl⟩
  have hadd : globalCreateEp env s (some addr) bind = sockAddEp env s .ipc bind rest := hcreate
  unfold sockAddEp at hadd
  simp only at hadd
  rw [if_neg (Nat.not_lt.mpr hrest), hepbase, ok_bind] at hadd
  let s₂ := env.started .ep s.heap.next s₁
  let ep : SockEp := { eid := s₂.eid, addr := rest }
  exact ⟨{ s₂ with eps := s₂.eps ++ [ep], eid := s₂.eid + 1 }, ep, hadd, List.getLast?_concat, rfl⟩

/-- An address that is handed to the ipc transport does not end the process while its path is
built if and only if what follows `ipc://` fits into `sun_path`. -/
theorem survives_iff (env : CreateEnv σ) (s : CreateState σ) {addr rest : List UInt8}
    (bind : Bool) (hlength : addr.length < sockaddrMax)
    (hsplit : splitProtocol addr = some (TransportKind.ipc.name, rest)) :
    Survives env s addr bind ↔ rest.length < sunPathSize := by
  obtain ⟨s', ep, hcreate, hlast, rfl⟩ := globalCreateEp_ipc env s bind hlength hsplit
  rw [← buildsPath_iff bind]
  constructor
  · rintro ⟨s'', rc, hcreate', hcases⟩
    obtain ⟨rfl, rfl⟩ := Prod.mk.inj (Except.ok.inj (hcreate.symm.trans hcreate'))
    rcases hcases with ⟨hneg, -⟩ | ⟨ep', hlast', -, hbuilds⟩
    · exact absurd hneg (Int.not_lt.mpr (Int.natCast_nonneg _))
    · obtain rfl := Option.some.inj (hlast.symm.trans hlast')
      exact hbuilds
  · intro h
    exact ⟨s', _, hcreate, Or.inr ⟨ep, hlast, rfl, h⟩⟩

/-- `ipc://`, and a path of so many bytes. -/
def ipcAddress (n : Nat) : List UInt8 := [105, 112, 99, 58, 47, 47] ++ List.replicate n 97

theorem splitProtocol_ipcAddress (n : Nat) :
    splitProtocol (ipcAddress n) = some (TransportKind.ipc.name, List.replicate n 97) := rfl

theorem survives_iff_long :
    Survives quietEnv { statistics := () } (ipcAddress 108) true ↔
      (List.replicate 108 (97 : UInt8)).length < sunPathSize :=
  survives_iff quietEnv { statistics := () } true (by decide) (splitProtocol_ipcAddress 108)

/-- A path of 108 bytes has no room for the zero behind it. -/
theorem not_survives : ¬Survives quietEnv { statistics := () } (ipcAddress 108) true := by
  rintro ⟨s', rc, hcreate, hcases⟩
  obtain ⟨s₁, ep, hcreate₁, hlast, haddr⟩ := globalCreateEp_ipc quietEnv { statistics := () } true
    (by decide) (splitProtocol_ipcAddress 108)
  obtain ⟨rfl, rfl⟩ := Prod.mk.inj (Except.ok.inj (hcreate₁.symm.trans hcreate))
  rcases hcases with ⟨hneg, -⟩ | ⟨ep', hlast', -, hbuilds⟩
  · exact absurd hneg (Int.not_lt.mpr (Int.natCast_nonneg _))
  · obtain rfl := Option.some.inj (hlast.symm.trans hlast')
    have hshort := (buildsPath_iff true ep.addr).mp hbuilds
    rw [haddr] at hshort
    exact absurd hshort (by decide)

end GridMq.Transports
