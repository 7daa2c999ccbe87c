import Mathlib.Data.List.Basic

set_option autoImplicit false

/-!
# Framed streams

A stream is cut into frames by headers of one length.  A header says how long the body
is that follows it, or ends the stream.  How the stream is cut is a function of its
bytes; the lemmas say so for a reader that has come some way.
-/

namespace GridMq.Library

universe u v

/-- How a header is read: the length of the body that follows, or why the stream ends. -/
structure Framing (β : Type u) (ε : Type v) where
  hdrLen : Nat
  size : List β → Except ε Nat

namespace Framing

variable {β : Type u} {ε : Type v} {F : Framing β ε}

/-- A header with the body it announces. -/
structure IsFrame (F : Framing β ε) (hdr body : List β) : Prop where
  hdr_length : hdr.length = F.hdrLen
  size_eq : F.size hdr = .ok body.length

/-- Bytes that are cut into whole frames, with the bodies of these. -/
inductive Frames (F : Framing β ε) : List β → List (List β) → Prop where
  | nil : Frames F [] []
  | cons {hdr body bytes : List β} {bodies : List (List β)} (hframe : F.IsFrame hdr body)
      (hrest : Frames F bytes bodies) : Frames F (hdr ++ (body ++ bytes)) (body :: bodies)

/-- Bytes that do not begin with a whole frame. -/
def NoFrame (F : Framing β ε) (bytes : List β) : Prop :=
  ∀ hdr body rest, F.IsFrame hdr body → bytes ≠ hdr ++ (body ++ rest)

/-! ## Bytes without a whole frame -/

theorem noFrame_of_short {bytes : List β} (h : bytes.length < F.hdrLen) : F.NoFrame bytes := by
  intro hdr body rest hframe heq
  have hlen := congrArg List.length heq
  rw [List.length_append, hframe.hdr_length] at hlen
  omega

theorem noFrame_nil (h : 0 < F.hdrLen) : F.NoFrame [] := noFrame_of_short h

/-- A header whose body has not come in full. -/
theorem noFrame_of_size {hdr rest : List β} {n : Nat} (hlen : hdr.length = F.hdrLen)
    (hsize : F.size hdr = .ok n) (hrest : rest.length < n) : F.NoFrame (hdr ++ rest) := by
  intro hdr' body rest' hframe heq
  obtain ⟨rfl, hbody⟩ := List.append_inj heq (by rw [hlen, hframe.hdr_length])
  have hn : n = body.length := by
    have := hsize.symm.trans hframe.size_eq
    exact Except.ok.inj this
  have := congrArg List.length hbody
  rw [List.length_append] at this
  omega

/-- A header that ends the stream. -/
theorem noFrame_of_error {hdr : List β} (rest : List β) {e : ε} (hlen : hdr.length = F.hdrLen)
    (hsize : F.size hdr = .error e) : F.NoFrame (hdr ++ rest) := by
  intro hdr' body rest' hframe heq
  obtain ⟨rfl, -⟩ := List.append_inj heq (by rw [hlen, hframe.hdr_length])
  have := hsize.symm.trans hframe.size_eq
  exact absurd this (by simp)

/-! ## Whole frames -/

theorem frames_single {hdr body : List β} (h : F.IsFrame hdr body) :
    F.Frames (hdr ++ body) [body] := by
  have := Frames.cons h Frames.nil
  rwa [List.append_nil] at this

theorem Frames.append {bytes bytes' : List β} {bodies bodies' : List (List β)}
    (h : F.Frames bytes bodies) (h' : F.Frames bytes' bodies') :
    F.Frames (bytes ++ bytes') (bodies ++ bodies') := by
  induction h with
  | nil => exact h'
  | cons hframe hrest ih =>
      rw [List.append_assoc, List.append_assoc, List.cons_append]
      exact Frames.cons hframe ih

/-- A reader takes one more frame. -/
theorem Frames.snoc {bytes hdr body : List β} {bodies : List (List β)}
    (h : F.Frames bytes bodies) (hframe : F.IsFrame hdr body) :
    F.Frames (bytes ++ (hdr ++ body)) (bodies ++ [body]) :=
  h.append (frames_single hframe)

/-- Frames that are written one behind the other. -/
theorem frames_flatten (hdr : List β → List β) {bodies : List (List β)}
    (h : ∀ body ∈ bodies, F.IsFrame (hdr body) body) :
    F.Frames (bodies.map fun body => hdr body ++ body).flatten bodies := by
  induction bodies with
  | nil => exact Frames.nil
  | cons body bodies ih =>
      have hframe := h body List.mem_cons_self
      have hrest := ih fun b hb => h b (List.mem_cons_of_mem body hb)
      rw [List.map_cons, List.flatten_cons, List.append_assoc]
      exact Frames.cons hframe hrest

/-- Of two readers of one stream the one that is ahead has read whole frames more, and
found no place to stop where the other one is. -/
theorem Frames.ahead {bytes bytes' rest rest' : List β} {bodies bodies' : List (List β)}
    (h : F.Frames bytes bodies) (h' : F.Frames bytes' bodies')
    (heq : bytes ++ rest = bytes' ++ rest') :
    (∃ more moreBodies, F.Frames more moreBodies ∧ bytes' = bytes ++ more ∧
        bodies' = bodies ++ moreBodies ∧ rest = more ++ rest') ∨
      ∃ more moreBodies, F.Frames more moreBodies ∧ bytes = bytes' ++ more ∧
        bodies = bodies' ++ moreBodies ∧ rest' = more ++ rest := by
  induction h generalizing bytes' bodies' with
  | nil => exact Or.inl ⟨bytes', bodies', h', rfl, rfl, heq⟩
  | @cons hdr body tail bodiesTail hframe hrest ih =>
      cases h' with
      | nil => exact Or.inr ⟨_, _, Frames.cons hframe hrest, rfl, rfl, heq.symm⟩
      | @cons hdr' body' tail' bodiesTail' hframe' hrest' =>
          simp only [List.append_assoc] at heq
          obtain ⟨rfl, hbodies⟩ :=
            List.append_inj heq (by rw [hframe.hdr_length, hframe'.hdr_length])
          have hlen : body.length = body'.length :=
            Except.ok.inj (hframe.size_eq.symm.trans hframe'.size_eq)
          obtain ⟨rfl, htail⟩ := List.append_inj hbodies hlen
          rcases ih hrest' htail with ⟨more, moreBodies, hmore, rfl, rfl, hr⟩ |
            ⟨more, moreBodies, hmore, rfl, rfl, hr⟩
          · exact Or.inl ⟨more, moreBodies, hmore, by simp, rfl, hr⟩
          · exact Or.inr ⟨more, moreBodies, hmore, by simp, rfl, hr⟩

/-- Frames that are found where no frame begins are none. -/
theorem Frames.none_of_noFrame {more rest rest' : List β} {bodies : List (List β)}
    (h : F.Frames more bodies) (hno : F.NoFrame rest) (heq : rest = more ++ rest') :
    more = [] ∧ bodies = [] := by
  cases h with
  | nil => exact ⟨rfl, rfl⟩
  | @cons hdr body bytes bodies hframe hrest =>
      refine absurd ?_ (hno hdr body (bytes ++ rest') hframe)
      rw [heq, List.append_assoc, List.append_assoc]

/-- A reader that has read a part of a stream has found the first of its bodies. -/
theorem Frames.bodies_le {bytes bytes' rest rest' unread : List β}
    {bodies bodies' : List (List β)} (h : F.Frames bytes bodies) (h' : F.Frames bytes' bodies')
    (hno : F.NoFrame rest') (heq : bytes ++ rest ++ unread = bytes' ++ rest') :
    ∃ left, bodies' = bodies ++ left := by
  rw [List.append_assoc] at heq
  rcases h.ahead h' heq with ⟨more, moreBodies, -, -, hb, -⟩ | ⟨more, moreBodies, hm, -, hb, hr⟩
  · exact ⟨moreBodies, hb⟩
  · obtain ⟨-, rfl⟩ := hm.none_of_noFrame hno hr
    exact ⟨[], by rw [hb, List.append_nil, List.append_nil]⟩

/-- A stream is cut in one way. -/
theorem Frames.unique {bytes bytes' rest rest' : List β} {bodies bodies' : List (List β)}
    (h : F.Frames bytes bodies) (h' : F.Frames bytes' bodies') (hno : F.NoFrame rest)
    (hno' : F.NoFrame rest') (heq : bytes ++ rest = bytes' ++ rest') :
    bytes = bytes' ∧ bodies = bodies' ∧ rest = rest' := by
  rcases h.ahead h' heq with ⟨more, moreBodies, hm, rfl, rfl, hr⟩ |
    ⟨more, moreBodies, hm, rfl, rfl, hr⟩
  · obtain ⟨rfl, rfl⟩ := hm.none_of_noFrame hno hr
    exact ⟨by simp, by simp, by simpa using hr⟩
  · obtain ⟨rfl, rfl⟩ := hm.none_of_noFrame hno' hr
    exact ⟨by simp, by simp, by simpa using hr.symm⟩

end Framing

end GridMq.Library
