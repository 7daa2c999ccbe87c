import GridMq.Bus.Xbus

set_option autoImplicit false

/-!
# BUS sockets, and a device in their middle

Any number of BUS sockets, joined by links.  A raw socket may be driven by a device with one
socket (`grid_device_loopback` of `src/devices/device.c`), which sends whatever it receives back
to the socket, so that each of the pipes gets what came in on the others.
-/

namespace GridMq.Bus

open GridMq.Core GridMq.Library GridMq.Protocols

/-- BUS sockets that are joined by links. -/
abbrev State := TwoWay.State Xbus Xbus.Op Answer

/-- The sockets, each with the addresses of its own pipes. -/
abbrev network (address : Nat → UInt64) (links : Links) :
    Network Nat Nat (List UInt8) (fun _ => Xbus) fun _ => Xbus.Label :=
  TwoWay.network (Xbus.view address) links

variable {address : Nat → UInt64} {links : Links} {s : State}

theorem run_party (h : (network address links).system.Reachable s) (i : Nat) :
    Xbus.Inv address (s.parties i) ∧ ∀ l ∈ s.trace i, Xbus.Spares address l :=
  have hrun := Xbus.inv_run (Network.run_party h i)
  ⟨hrun.1, hrun.2.1⟩

/-- What is given to a pipe was sent, in that order, and was not to keep off the pipe. -/
theorem given_sublist (h : (network address links).system.Reachable s) (i p : Nat) :
    (entries p (TwoWay.given (Xbus.view address) s i)).Sublist
      ((s.trace i).filterMap (Xbus.meant address p)) :=
  entries_flatMap_sublist fun _ hl => Xbus.entries_given ((run_party h i).2 _ hl) p

/-! ## The device -/

/-- The labels of a raw socket that a device drives: `grid_device_mvmsg` receives, waiting for a
message if there is none, and sends what it received, header and all.  The message is the one
that it holds. -/
inductive Loopback : List Xbus.Label → Option (Nat × Msg) → Prop where
  | start : Loopback [] none
  | pipe {labels : List Xbus.Label} {held : Option (Nat × Msg)} (h : Loopback labels held)
      (op : PipeOp) : Loopback (labels ++ [(.pipe op, .done)]) held
  | wait {labels : List Xbus.Label} (h : Loopback labels none) :
      Loopback (labels ++ [(.recv, .again)]) none
  | recv {labels : List Xbus.Label} (h : Loopback labels none) (p : Nat) (msg : Msg) :
      Loopback (labels ++ [(.recv, .received p msg)]) (some (p, msg))
  | send {labels : List Xbus.Label} {p : Nat} {msg : Msg} (h : Loopback labels (some (p, msg)))
      (pipes : List Nat) : Loopback (labels ++ [(.send msg, .sent pipes)]) none

/-- The messages that came in on other pipes. -/
def fromOthers (p : Nat) (taken : List (Nat × List UInt8)) : List (List UInt8) :=
  taken.filterMap fun e => if e.1 = p then none else some e.2

theorem fromOthers_append (p : Nat) (taken taken' : List (Nat × List UInt8)) :
    fromOthers p (taken ++ taken') = fromOthers p taken ++ fromOthers p taken' :=
  List.filterMap_append

/-- What a device holds, as long as it was not sent to a pipe. -/
def heldFor (p : Nat) : Option (Nat × Msg) → List (List UInt8)
  | none => []
  | some (q, msg) => fromOthers p [(q, msg.body)]

/-- A message that was received has the pipe that it came in on as its header. -/
def Headed (address : Nat → UInt64) : Xbus.Label → Prop
  | (.recv, .received p msg) => msg.sphdr = header address p
  | _ => True

theorem headed_run {mine : Nat → Bool} {labels : List Xbus.Label} {x : Xbus}
    (h : (Xbus.machine address mine).system.Run labels x) : ∀ l ∈ labels, Headed address l := by
  have hrun : Xbus.Inv address x ∧ ∀ l ∈ labels, Headed address l := by
    refine Machine.run_rule (m := Xbus.machine address mine)
      (P := fun labels x => Xbus.Inv address x ∧ ∀ l ∈ labels, Headed address l)
      ⟨Xbus.inv_init address, by simp⟩ ?_ h
    intro labels x op x' r ih hen hnext
    obtain ⟨x₁, r₁, hcall, hinv, -⟩ := ih.1.sound hen
    obtain ⟨rfl, rfl⟩ := Prod.mk.inj (Except.ok.inj (hcall.symm.trans hnext))
    refine ⟨hinv, ?_⟩
    intro l hl
    rcases List.mem_append.mp hl with hl | hl
    · exact ih.2 l hl
    · obtain rfl := List.mem_singleton.mp hl
      cases op with
      | recv =>
          rcases ih.1.recv_spec with hrecv | ⟨x₂, p, wire, hrecv, -⟩
          · obtain ⟨-, rfl⟩ := Prod.mk.inj (Except.ok.inj (hrecv.symm.trans hcall))
            trivial
          · obtain ⟨-, rfl⟩ := Prod.mk.inj (Except.ok.inj (hrecv.symm.trans hcall))
            rfl
      | _ => trivial
  exact hrun.2

/-- What the device sends to a pipe is what came in on the others, less what it holds. -/
theorem Loopback.meant {labels : List Xbus.Label} {held : Option (Nat × Msg)}
    (h : Loopback labels held) (hheaded : ∀ l ∈ labels, Headed address l) (p : Nat) :
    (labels.filterMap (Xbus.meant address p) ++ heldFor p held).Sublist
        (fromOthers p (labels.flatMap Xbus.taken)) ∧
      ∀ q msg, held = some (q, msg) → msg.sphdr = header address q := by
  induction h with
  | start => exact ⟨List.Sublist.refl _, fun q msg hheld => absurd hheld (by simp)⟩
  | @pipe labels held h op ih =>
      obtain ⟨hsub, hheader⟩ := ih fun l hl => hheaded l (List.mem_append_left _ hl)
      refine ⟨?_, hheader⟩
      have hmeant : Xbus.meant address p (.pipe op, .done) = none := rfl
      rw [filterMap_concat, hmeant, Option.toList_none, List.append_nil, List.flatMap_append,
        fromOthers_append]
      exact hsub.trans (List.sublist_append_left _ _)
  | @wait labels h ih =>
      obtain ⟨hsub, hheader⟩ := ih fun l hl => hheaded l (List.mem_append_left _ hl)
      refine ⟨?_, hheader⟩
      have hmeant : Xbus.meant address p (.recv, .again) = none := rfl
      rw [filterMap_concat, hmeant, Option.toList_none, List.append_nil, List.flatMap_append,
        fromOthers_append]
      exact hsub.trans (List.sublist_append_left _ _)
  | @recv labels h q msg ih =>
      obtain ⟨hsub, -⟩ := ih fun l hl => hheaded l (List.mem_append_left _ hl)
      have hlast : Headed address (.recv, .received q msg) :=
        hheaded _ (List.mem_append_right _ List.mem_cons_self)
      refine ⟨?_, ?_⟩
      · have hmeant : Xbus.meant address p (.recv, .received q msg) = none := rfl
        have htaken : [(Xbus.Op.recv, Answer.received q msg)].flatMap Xbus.taken =
            [(q, msg.body)] := rfl
        rw [filterMap_concat, hmeant, Option.toList_none, List.append_nil, List.flatMap_append,
          fromOthers_append, htaken]
        rw [heldFor, List.append_nil] at hsub
        exact hsub.append (List.Sublist.refl _)
      · intro q' msg' hheld
        obtain ⟨rfl, rfl⟩ := Prod.mk.inj (Option.some.inj hheld)
        exact hlast
  | @send labels q msg h pipes ih =>
      obtain ⟨hsub, hheader⟩ := ih fun l hl => hheaded l (List.mem_append_left _ hl)
      refine ⟨?_, fun q msg hheld => absurd hheld (by simp)⟩
      have hsent : (Xbus.meant address p (.send msg, .sent pipes)).toList.Sublist
          (heldFor p (some (q, msg))) := by
        rw [Xbus.meant]
        split
        · exact List.nil_sublist _
        · rename_i hp
          have hq : q ≠ p := by
            intro hqp
            exact hp (hqp ▸ hheader q msg rfl)
          simp [heldFor, fromOthers, hq]
      have htaken : [(Xbus.Op.send msg, Answer.sent pipes)].flatMap Xbus.taken = [] := rfl
      rw [filterMap_concat, List.flatMap_append, htaken, List.append_nil, heldFor,
        List.append_nil]
      exact ((List.Sublist.refl _).append hsent).trans hsub

/-- The message that a device holds is taken. -/
theorem send_of_held (h : (network address links).system.Reachable s) {i : Nat}
    {held : Option (Nat × Msg)} (hdevice : Loopback (s.trace i) held) {q : Nat} {msg : Msg}
    (hheld : held = some (q, msg)) :
    ∃ s' pipes, Xbus.next address (s.parties i) (.send msg) = .ok (s', .sent pipes) := by
  have hheader := (hdevice.meant (headed_run (Network.run_party h i)) 0).2 q msg hheld
  rcases (run_party h i).1.send_spec msg with ⟨-, -, hne⟩ | ⟨s', pipes, hcall, -⟩
  · exact absurd (hheader ▸ Xbus.length_header address q) hne
  · exact ⟨s', pipes, hcall⟩

/-! ## Runs -/

/-- A socket in the middle, joined to two others: the ends 0 and 1 are its own. -/
def star : Links where
  owner p := if p < 2 then 0 else p
  peer p := if p < 2 then p + 2 else if p < 4 then p - 2 else p
  peer_peer p := by
    split <;> (try split) <;> (try split) <;> omega

/-- The addresses of the pipes. -/
def addresses (p : Nat) : UInt64 := .ofNat (4096 + 256 * p)

/-- One of the others sends, and the device in the middle passes the message on. -/
def relay : List ((_ : Nat) × Xbus.Op × Answer) :=
  [⟨0, .pipe (.add 0 defaultPriority defaultPriority), .done⟩,
    ⟨0, .pipe (.add 1 defaultPriority defaultPriority), .done⟩,
    ⟨2, .pipe (.add 2 defaultPriority defaultPriority), .done⟩,
    ⟨3, .pipe (.add 3 defaultPriority defaultPriority), .done⟩,
    ⟨0, .pipe (.deliver 0 .pipeOut), .done⟩,
    ⟨0, .pipe (.deliver 1 .pipeOut), .done⟩,
    ⟨2, .pipe (.deliver 2 .pipeOut), .done⟩,
    ⟨2, .busSend { body := [7] }, .sent [2]⟩,
    ⟨0, .pipe (.arrive 0 [7]), .done⟩,
    ⟨0, .pipe (.deliver 0 .pipeIn), .done⟩,
    ⟨0, .recv, .received 0 { sphdr := header addresses 0, body := [7] }⟩,
    ⟨0, .send { sphdr := header addresses 0, body := [7] }, .sent [1]⟩,
    ⟨3, .pipe (.arrive 3 [7]), .done⟩,
    ⟨3, .pipe (.deliver 3 .pipeIn), .done⟩,
    ⟨3, .busRecv, .received 3 { body := [7] }⟩]

/-- In every run of BUS sockets no assertion of the socket type fails, and every message goes over
the pipes of its socket, over each link once and in order, with nothing lost at an end that is up.
A pipe gets only messages that were not to keep off it, and of those every one for which it is
ready. -/
theorem bus_delivers (h : (network address links).system.Reachable s) :
    (∀ i op, Xbus.Enabled address (fun p => links.owner p == i) (s.parties i) op →
      ∃ r, Xbus.next address (s.parties i) op = .ok r) ∧
    TwoWay.Delivers (Xbus.view address) links s ∧
    (∀ i p, (entries p (TwoWay.given (Xbus.view address) s i)).Sublist
      ((s.trace i).filterMap (Xbus.meant address p))) ∧
    ∀ i op msg s' pipes, op = .send msg ∨ op = .busSend msg →
      Xbus.next address (s.parties i) op = .ok (s', .sent pipes) →
      ∀ p pipe, (Xbus.pipes (s.parties i)).pipes p = some pipe → pipe.outstate = .idle →
        (p, PipeEvent.pipeOut) ∉ (Xbus.pipes (s.parties i)).events →
        msg.sphdr ≠ header address p → p ∈ pipes := by
  refine ⟨?_, TwoWay.delivers (Xbus.accounts address) h, given_sublist h, ?_⟩
  · intro i op hen
    obtain ⟨s', r, hcall, -⟩ := (run_party h i).1.sound hen
    exact ⟨(s', r), hcall⟩
  · intro i op msg s' pipes hop hnext p pipe hpipe hidle hquiet hheader
    have hinv := (run_party h i).1
    have hcall : (s.parties i).send address msg = .ok (s', .sent pipes) := by
      rcases hop with rfl | rfl
      · exact hnext
      · exact Xbus.send_of_busSend hnext
    rcases hinv.send_spec msg with ⟨hsend, -⟩ | ⟨s₁, pipes', hsend, -, -, -, hmem, -⟩
    · exact absurd (Prod.mk.inj (Except.ok.inj (hsend.symm.trans hcall))).2 (by simp)
    · have hsame := (Prod.mk.inj (Except.ok.inj (hsend.symm.trans hcall))).2
      obtain rfl := Answer.sent.inj hsame
      exact (hmem p).mpr ⟨hinv.mem_of_idle hpipe hidle hquiet, hheader⟩

theorem bus_delivers_relay :
    ∃ s, TwoWay.after (Xbus.view addresses) star (Xbus.ready addresses) relay = some s ∧
      TwoWay.taken (Xbus.view addresses) s 3 = [(3, [7])] ∧
      (entries 0 (TwoWay.given (Xbus.view addresses) s 0)).Sublist
        ((s.trace 0).filterMap (Xbus.meant addresses 0)) := by
  have hrun : (TwoWay.after (Xbus.view addresses) star (Xbus.ready addresses) relay).map
      (fun s => TwoWay.taken (Xbus.view addresses) s 3) = some [(3, [7])] := by
    decide +kernel
  obtain ⟨s, hs, htaken⟩ := Option.map_eq_some_iff.mp hrun
  have hreach := TwoWay.reachable_after (Xbus.enabled_of_ready addresses) hs
  exact ⟨s, hs, htaken, (bus_delivers hreach).2.2.1 0 0⟩

/-- A socket that a device drives takes every message that the device sends; what arrives over a
link of it, at the other end, came in on its other links, in that order and once; and what came
in on a link was sent at the other end, in that order and once. -/
theorem loopback_forwards (h : (network address links).system.Reachable s) {i : Nat}
    {held : Option (Nat × Msg)} (hdevice : Loopback (s.trace i) held) :
    (∀ q msg, held = some (q, msg) →
      ∃ s' pipes, Xbus.next address (s.parties i) (.send msg) = .ok (s', .sent pipes)) ∧
    (∀ p, links.owner p = i →
      (entries (links.peer p)
        (TwoWay.taken (Xbus.view address) s (links.owner (links.peer p)))).Sublist
          (fromOthers p (TwoWay.taken (Xbus.view address) s i))) ∧
    ∀ p, links.owner p = i → entries p (TwoWay.taken (Xbus.view address) s i) <+:
      entries (links.peer p)
        (TwoWay.given (Xbus.view address) s (links.owner (links.peer p))) := by
  have hdelivers := TwoWay.delivers (Xbus.accounts address) h
  refine ⟨fun q msg hheld => send_of_held h hdevice hheld, ?_, ?_⟩
  · intro p hp
    have horder := hdelivers.order (links.peer p)
    rw [links.peer_peer, hp] at horder
    have hmeant := (hdevice.meant (headed_run (Network.run_party h i)) p).1
    exact (horder.sublist.trans (given_sublist h i p)).trans
      ((List.sublist_append_left _ _).trans hmeant)
  · intro p hp
    have horder := hdelivers.order p
    rw [hp] at horder
    exact horder

/-- What happens to the socket in the middle. -/
def relayTrace : List Xbus.Label :=
  [(.pipe (.add 0 defaultPriority defaultPriority), .done),
    (.pipe (.add 1 defaultPriority defaultPriority), .done),
    (.pipe (.deliver 0 .pipeOut), .done),
    (.pipe (.deliver 1 .pipeOut), .done),
    (.pipe (.arrive 0 [7]), .done),
    (.pipe (.deliver 0 .pipeIn), .done),
    (.recv, .received 0 { sphdr := header addresses 0, body := [7] }),
    (.send { sphdr := header addresses 0, body := [7] }, .sent [1])]

theorem loopback_relayTrace : Loopback relayTrace none := by
  have hpipes := ((((((Loopback.start.pipe (.add 0 defaultPriority defaultPriority)).pipe
    (.add 1 defaultPriority defaultPriority)).pipe (.deliver 0 .pipeOut)).pipe
    (.deliver 1 .pipeOut)).pipe (.arrive 0 [7])).pipe (.deliver 0 .pipeIn))
  exact (hpipes.recv 0 { sphdr := header addresses 0, body := [7] }).send [1]

theorem loopback_forwards_relay :
    ∃ s, TwoWay.after (Xbus.view addresses) star (Xbus.ready addresses) relay = some s ∧
      TwoWay.taken (Xbus.view addresses) s 0 = [(0, [7])] ∧
      TwoWay.taken (Xbus.view addresses) s 3 = [(3, [7])] ∧
      (entries 3 (TwoWay.taken (Xbus.view addresses) s 3)).Sublist
        (fromOthers 1 (TwoWay.taken (Xbus.view addresses) s 0)) := by
  have hrun : (TwoWay.after (Xbus.view addresses) star (Xbus.ready addresses) relay).map
      (fun s => (s.trace 0, TwoWay.taken (Xbus.view addresses) s 0,
        TwoWay.taken (Xbus.view addresses) s 3)) = some (relayTrace, [(0, [7])], [(3, [7])]) := by
    decide +kernel
  obtain ⟨s, hs, heq⟩ := Option.map_eq_some_iff.mp hrun
  obtain ⟨htrace, hrest⟩ := Prod.mk.inj heq
  obtain ⟨hmiddle, hother⟩ := Prod.mk.inj hrest
  have hreach := TwoWay.reachable_after (Xbus.enabled_of_ready addresses) hs
  have hforwards := loopback_forwards hreach (i := 0) (htrace ▸ loopback_relayTrace)
  exact ⟨s, hs, hmiddle, hother, hforwards.2.1 1 (by decide)⟩

end GridMq.Bus
