import GridMq.Transports.TcpAddress
import GridMq.Transports.CtcpRuns

set_option autoImplicit false

/-!
# What TCP endpoints accept

Each parser reads nothing but the bytes it is given, and accepts what the grammar has there.
-/

namespace GridMq.Transports

variable {s : List UInt8} {pton : InetPton} {ipv4only : Bool} {i len : Nat}

/-! ## Reads -/

/-- The bytes from a place on. -/
def slice (s : List UInt8) (i len : Nat) : List UInt8 := (s.drop i).take len

theorem slice_zero (s : List UInt8) (i : Nat) : slice s i 0 = [] := List.take_zero ..

theorem length_slice (h : i + len ≤ s.length) : (slice s i len).length = len := by
  rw [slice, List.length_take, List.length_drop]
  omega

/-- The first byte of some bytes is read. -/
theorem readByte_slice (h : i + (len + 1) ≤ s.length) :
    ∃ c, readByte s i = .ok c ∧ slice s i (len + 1) = c :: slice s (i + 1) len := by
  have hi : i < s.length := by omega
  refine ⟨s[i], ?_, ?_⟩
  · rw [readByte, List.getElem?_eq_getElem hi]
  · rw [slice, List.drop_eq_getElem_cons hi, List.take_succ_cons]
    rfl

theorem readBytes_slice (h : i + len ≤ s.length) : readBytes s i len = .ok (slice s i len) :=
  if_pos h

/-- The last byte of some bytes is read. -/
theorem readByte_last (h : i + (len + 1) ≤ s.length) :
    ∃ c, readByte s (i + len) = .ok c ∧ slice s i (len + 1) = slice s i len ++ [c] := by
  have hi : i + len < s.length := by omega
  refine ⟨s[i + len], ?_, ?_⟩
  · rw [readByte, List.getElem?_eq_getElem hi]
  · have hlt : len < (s.drop i).length := by
      rw [List.length_drop]
      omega
    rw [slice, slice, List.take_succ_eq_append_getElem hlt, List.getElem_drop]

theorem sizeT_ok {x : Int} (h : 0 ≤ x) (hx : x < 0x10000000000000000) : sizeT x = .ok x.toNat :=
  if_pos ⟨h, hx⟩

theorem intT_ok {x : Int} (h : -0x80000000 ≤ x) (hx : x < 0x80000000) : intT x = .ok x :=
  if_pos ⟨h, hx⟩

/-! ## Places -/

theorem strchr_none {c : UInt8} : strchr c s = none ↔ c ∉ s := by
  induction s with
  | nil => simp [strchr]
  | cons x s ih =>
    rw [strchr]
    by_cases hx : x = c
    · simp [hx]
    · rw [if_neg hx, Option.map_eq_none_iff, ih, List.mem_cons, not_or]
      exact ⟨fun h => ⟨fun heq => hx heq.symm, h⟩, fun h => h.2⟩

/-- The first place of a character. -/
theorem strchr_some {c : UInt8} (h : strchr c s = some i) :
    ∃ front back, s = front ++ c :: back ∧ c ∉ front ∧ i = front.length := by
  induction s generalizing i with
  | nil => cases h
  | cons x s ih =>
    rw [strchr] at h
    by_cases hx : x = c
    · rw [if_pos hx] at h
      cases h
      exact ⟨[], s, by rw [hx]; rfl, List.not_mem_nil, rfl⟩
    · rw [if_neg hx] at h
      obtain ⟨j, hj, rfl⟩ := Option.map_eq_some_iff.mp h
      obtain ⟨front, back, rfl, hfront, rfl⟩ := ih hj
      refine ⟨x :: front, back, rfl, ?_, rfl⟩
      rw [List.mem_cons, not_or]
      exact ⟨fun heq => hx heq.symm, hfront⟩

theorem strrchr_none {c : UInt8} : strrchr c s = none ↔ c ∉ s := by
  induction s with
  | nil => simp [strrchr]
  | cons x s ih =>
    rw [strrchr, List.mem_cons, not_or, ← ih]
    cases hs : strrchr c s with
    | some j => simp
    | none =>
      by_cases hx : x = c
      · simp [hx]
      · simp [hx, eq_comm (a := c)]

/-- The last place of a character. -/
theorem strrchr_some {c : UInt8} (h : strrchr c s = some i) :
    ∃ front back, s = front ++ c :: back ∧ c ∉ back ∧ i = front.length := by
  induction s generalizing i with
  | nil => cases h
  | cons x s ih =>
    rw [strrchr] at h
    cases hs : strrchr c s with
    | some j =>
      rw [hs] at h
      cases h
      obtain ⟨front, back, rfl, hback, rfl⟩ := ih hs
      exact ⟨x :: front, back, rfl, hback, rfl⟩
    | none =>
      rw [hs] at h
      by_cases hx : x = c
      · simp only [if_pos hx] at h
        cases h
        exact ⟨[], s, by rw [hx]; rfl, strrchr_none.mp hs, rfl⟩
      · simp only [if_neg hx] at h
        cases h

theorem strchr_eq {c : UInt8} (front back : List UInt8) (h : c ∉ front) :
    strchr c (front ++ c :: back) = some front.length := by
  induction front with
  | nil => rw [List.nil_append, strchr, if_pos rfl, List.length_nil]
  | cons x front ih =>
    rw [List.mem_cons, not_or] at h
    rw [List.cons_append, strchr, if_neg (fun heq => h.1 heq.symm), ih h.2]
    rfl

theorem strrchr_eq {c : UInt8} (front back : List UInt8) (h : c ∉ back) :
    strrchr c (front ++ c :: back) = some front.length := by
  induction front with
  | nil => simp [strrchr, strrchr_none.mpr h]
  | cons x front ih =>
    rw [List.cons_append, strrchr, ih]
    rfl

/-- There is one first place, and one last place. -/
theorem first_unique {c : UInt8} {front back front' back' : List UInt8} (h : c ∉ front)
    (h' : c ∉ front') (heq : front ++ c :: back = front' ++ c :: back') :
    front = front' ∧ back = back' := by
  have hlen : front.length = front'.length := by
    have hplace := strchr_eq front back h
    rw [heq, strchr_eq front' back' h'] at hplace
    exact (Option.some.inj hplace).symm
  obtain ⟨hfront, hrest⟩ := List.append_inj heq hlen
  exact ⟨hfront, (List.cons.inj hrest).2⟩

theorem last_unique {c : UInt8} {front back front' back' : List UInt8} (h : c ∉ back)
    (h' : c ∉ back') (heq : front ++ c :: back = front' ++ c :: back') :
    front = front' ∧ back = back' := by
  have hlen : front.length = front'.length := by
    have hplace := strrchr_eq front back h
    rw [heq, strrchr_eq front' back' h'] at hplace
    exact (Option.some.inj hplace).symm
  obtain ⟨hfront, hrest⟩ := List.append_inj heq hlen
  exact ⟨hfront, (List.cons.inj hrest).2⟩

/-- The bytes on both sides of a place. -/
theorem slice_front (front back : List UInt8) (c : UInt8) :
    slice (front ++ c :: back) 0 front.length = front := by
  rw [slice, List.drop_zero, List.take_left']
  rfl

theorem slice_back (front back : List UInt8) (c : UInt8) :
    slice (front ++ c :: back) (front.length + 1) back.length = back := by
  rw [slice, ← List.drop_drop, List.drop_left, List.drop_succ_cons, List.drop_zero,
    List.take_length]

/-! ## Ports -/

/-- The value of digits behind a number. -/
def decimalFrom (v : Nat) (port : List UInt8) : Nat :=
  port.foldl (fun v c => v * 10 + (c.toNat - 48)) v

theorem le_decimalFrom (port : List UInt8) : ∀ v, v ≤ decimalFrom v port := by
  induction port with
  | nil => exact fun v => Nat.le_refl v
  | cons c port ih =>
    intro v
    refine Nat.le_trans ?_ (ih (v * 10 + (c.toNat - 48)))
    omega

/-- The loop reads no more than the port, and computes what the digits stand for. -/
theorem portLoop_ok (n : Nat) : ∀ (port v : Nat), port + n ≤ s.length → v ≤ 65535 →
    ∃ rc, portLoop s port v n = .ok rc ∧
      (0 ≤ rc ↔ (∀ c ∈ slice s port n, 48 ≤ c ∧ c ≤ 57) ∧
        1 ≤ decimalFrom v (slice s port n) ∧ decimalFrom v (slice s port n) ≤ 65535) := by
  induction n with
  | zero =>
    intro port v _ hv
    refine ⟨_, rfl, ?_⟩
    rw [slice_zero]
    by_cases hzero : v = 0
    · subst hzero
      simp [portInval, decimalFrom]
    · have hne : ¬(v : Int) = 0 := by omega
      rw [if_neg hne]
      simp only [decimalFrom, List.foldl_nil, List.not_mem_nil, false_implies, implies_true,
        true_and]
      omega
  | succ n ih =>
    intro port v hbound hv
    obtain ⟨c, hread, hslice⟩ := readByte_slice hbound
    rw [portLoop, hread, hslice, ok_bind]
    by_cases hdigit : c < 48 ∨ c > 57
    · rw [if_pos hdigit]
      refine ⟨portInval, rfl, ?_⟩
      constructor
      · intro hle
        cases hle
      · intro h
        have hc := h.1 c (List.mem_cons_self ..)
        rcases hdigit with hlt | hgt
        · exact absurd hc.1 (UInt8.not_le.mpr hlt)
        · exact absurd hc.2 (UInt8.not_le.mpr hgt)
    · rw [if_neg hdigit]
      have hdigit' : 48 ≤ c ∧ c ≤ 57 := by
        rw [not_or] at hdigit
        exact ⟨UInt8.not_lt.mp hdigit.1, UInt8.not_lt.mp hdigit.2⟩
      have hc48 : 48 ≤ c.toNat := UInt8.le_iff_toNat_le.mp hdigit'.1
      have hc57 : c.toNat ≤ 57 := UInt8.le_iff_toNat_le.mp hdigit'.2
      rw [intT_ok (by omega) (by omega), ok_bind, intT_ok (by omega) (by omega), ok_bind]
      have hvalue : ((v : Int) * 10 + ((c.toNat : Int) - 48)) =
          ((v * 10 + (c.toNat - 48) : Nat) : Int) := by omega
      have hcons : decimalFrom v (c :: slice s (port + 1) n) =
          decimalFrom (v * 10 + (c.toNat - 48)) (slice s (port + 1) n) := rfl
      rw [hvalue, hcons]
      by_cases hbig : ((v * 10 + (c.toNat - 48) : Nat) : Int) > 0xffff
      · rw [if_pos hbig]
        refine ⟨portInval, rfl, ?_⟩
        constructor
        · intro hle
          cases hle
        · intro h
          have hle := le_decimalFrom (slice s (port + 1) n) (v * 10 + (c.toNat - 48))
          omega
      · rw [if_neg hbig]
        obtain ⟨rc, hloop, hrc⟩ := ih (port + 1) (v * 10 + (c.toNat - 48)) (by omega) (by omega)
        refine ⟨rc, hloop, ?_⟩
        rw [hrc, List.forall_mem_cons]
        simp [hdigit']

/-- A port has digits only. -/
theorem IsPort.not_mem {port : List UInt8} (h : IsPort port) {c : UInt8} (hc : c > 57) :
    c ∉ port := by
  intro hmem
  exact absurd (h.1 c hmem).2 (UInt8.not_le.mpr hc)

/-! ## Hostnames -/

/-- What is left of a hostname when the label has some characters already. -/
def LabelsFrom (labelsz : Nat) (rest : List UInt8) : Prop :=
  ∃ first labels, rest.splitOn 46 = first :: labels ∧ 1 ≤ labelsz + first.length ∧
    labelsz + first.length ≤ 63 ∧ (∀ c ∈ first, hostChar c = true) ∧
    ∀ label ∈ labels, IsLabel label

theorem labelsFrom_zero (rest : List UInt8) :
    LabelsFrom 0 rest ↔ ∀ label ∈ rest.splitOn 46, IsLabel label := by
  constructor
  · rintro ⟨first, labels, hsplit, hlow, hhigh, hchars, hlabels⟩
    rw [hsplit, List.forall_mem_cons]
    exact ⟨⟨by omega, by omega, hchars⟩, hlabels⟩
  · intro h
    obtain ⟨first, labels, hsplit⟩ := List.exists_cons_of_ne_nil (List.splitOn_ne_nil 46 rest)
    rw [hsplit, List.forall_mem_cons] at h
    obtain ⟨⟨hlow, hhigh, hchars⟩, hlabels⟩ := h
    exact ⟨first, labels, hsplit, by omega, by omega, hchars, hlabels⟩

theorem labelsFrom_nil (k : Nat) : LabelsFrom k [] ↔ 1 ≤ k ∧ k ≤ 63 := by
  constructor
  · rintro ⟨first, labels, hsplit, hlow, hhigh, -, -⟩
    rw [List.splitOn_nil] at hsplit
    obtain ⟨rfl, -⟩ := List.cons.inj hsplit
    simpa using And.intro hlow hhigh
  · intro h
    refine ⟨[], [], List.splitOn_nil 46, h.1, h.2, ?_, ?_⟩
    · intro c hc
      cases hc
    · intro label hlabel
      cases hlabel

theorem labelsFrom_dot (k : Nat) (rest : List UInt8) :
    LabelsFrom k (46 :: rest) ↔ 1 ≤ k ∧ k ≤ 63 ∧ LabelsFrom 0 rest := by
  have hsplit : (46 :: rest : List UInt8).splitOn 46 = [] :: rest.splitOn 46 := by
    rw [List.splitOn_cons_eq_if_modifyHead]
    rfl
  rw [labelsFrom_zero]
  constructor
  · rintro ⟨first, labels, heq, hlow, hhigh, -, hlabels⟩
    rw [hsplit] at heq
    obtain ⟨rfl, rfl⟩ := List.cons.inj heq
    exact ⟨hlow, hhigh, hlabels⟩
  · rintro ⟨hlow, hhigh, hlabels⟩
    refine ⟨[], rest.splitOn 46, hsplit, hlow, hhigh, ?_, hlabels⟩
    intro c hc
    cases hc

theorem labelsFrom_cons (k : Nat) {c : UInt8} (rest : List UInt8) (hc : c ≠ 46) :
    LabelsFrom k (c :: rest) ↔ hostChar c = true ∧ LabelsFrom (k + 1) rest := by
  have hsplit : (c :: rest).splitOn 46 = (rest.splitOn 46).modifyHead (List.cons c) := by
    rw [List.splitOn_cons_eq_if_modifyHead, if_neg]
    simpa using hc
  obtain ⟨first, labels, hrest⟩ := List.exists_cons_of_ne_nil (List.splitOn_ne_nil 46 rest)
  rw [hrest, List.modifyHead_cons] at hsplit
  constructor
  · rintro ⟨first', labels', heq, hlow, hhigh, hchars, hlabels⟩
    rw [hsplit] at heq
    obtain ⟨rfl, rfl⟩ := List.cons.inj heq
    rw [List.forall_mem_cons] at hchars
    rw [List.length_cons] at hlow hhigh
    exact ⟨hchars.1, first, labels, hrest, by omega, by omega, hchars.2, hlabels⟩
  · rintro ⟨hchar, first', labels', heq, hlow, hhigh, hchars, hlabels⟩
    rw [hrest] at heq
    obtain ⟨rfl, rfl⟩ := List.cons.inj heq
    refine ⟨c :: first, labels, hsplit, ?_, ?_, ?_, hlabels⟩
    · rw [List.length_cons]
      omega
    · rw [List.length_cons]
      omega
    · rw [List.forall_mem_cons]
      exact ⟨hchar, hchars⟩

theorem hostLoop_ok (n : Nat) : ∀ (name k : Nat), name + n ≤ s.length → k ≤ 63 →
    ∃ rc, hostLoop s name k n = .ok rc ∧ (¬rc < 0 ↔ LabelsFrom k (slice s name n)) := by
  induction n with
  | zero =>
    intro name k _ hk
    refine ⟨_, rfl, ?_⟩
    rw [slice_zero, labelsFrom_nil]
    by_cases hzero : k = 0
    · simp [hzero, portInval]
    · have hne : ¬(k : Int) = 0 := by omega
      rw [if_neg hne]
      simp
      omega
  | succ n ih =>
    intro name k hbound hk
    obtain ⟨c, hread, hslice⟩ := readByte_slice hbound
    rw [hostLoop, hread, hslice, ok_bind]
    by_cases hdot : c = 46
    · subst hdot
      rw [if_pos rfl, labelsFrom_dot]
      by_cases hzero : k = 0
      · subst hzero
        refine ⟨portInval, rfl, ?_⟩
        simp [portInval]
      · have hne : ¬(k : Int) = 0 := by omega
        rw [if_neg hne]
        obtain ⟨rc, hloop, hrc⟩ := ih (name + 1) 0 (by omega) (by omega)
        refine ⟨rc, hloop, ?_⟩
        rw [hrc]
        constructor
        · intro h
          exact ⟨by omega, hk, h⟩
        · exact fun h => h.2.2
    · rw [if_neg hdot, labelsFrom_cons k _ hdot]
      by_cases hchar : hostChar c = true
      · rw [if_pos hchar, intT_ok (by omega) (by omega), ok_bind]
        by_cases hlong : (k : Int) + 1 > 63
        · rw [if_pos hlong]
          refine ⟨portInval, rfl, ?_⟩
          constructor
          · intro hle
            exact absurd (by decide) hle
          · rintro ⟨-, first, labels, -, -, hhigh, -⟩
            omega
        · rw [if_neg hlong]
          obtain ⟨rc, hloop, hrc⟩ := ih (name + 1) (k + 1) (by omega) (by omega)
          refine ⟨rc, ?_, ?_⟩
          · exact_mod_cast hloop
          · rw [hrc]
            simp [hchar]
      · rw [if_neg hchar]
        refine ⟨portInval, rfl, ?_⟩
        constructor
        · intro hle
          exact absurd (by decide) hle
        · intro h
          exact absurd h.1 hchar

/-- The check of the hostname. -/
theorem dnsCheckHostname_ok {name n : Nat} (h : name + n ≤ s.length) :
    ∃ rc, dnsCheckHostname s name n = .ok rc ∧ (¬rc < 0 ↔ IsHostname (slice s name n)) := by
  have hlen := length_slice h
  unfold dnsCheckHostname
  by_cases hsize : n < 1 ∨ n > 255
  · rw [if_pos hsize]
    refine ⟨portInval, rfl, ?_⟩
    constructor
    · intro hle
      exact absurd (by decide) hle
    · intro hhost
      have hbounds := hhost.size
      rw [hlen] at hbounds
      omega
  · rw [if_neg hsize]
    obtain ⟨m, rfl⟩ : ∃ m, n = m + 1 := ⟨n - 1, by omega⟩
    obtain ⟨c, hread, hslice⟩ := readByte_slice h
    rw [hread, ok_bind]
    by_cases hhyphen : c = 45
    · rw [if_pos hhyphen]
      refine ⟨portInval, rfl, ?_⟩
      constructor
      · intro hle
        exact absurd (by decide) hle
      · intro hhost
        have hne := hhost.hyphen
        rw [hslice, hhyphen] at hne
        exact absurd rfl hne
    · rw [if_neg hhyphen]
      obtain ⟨rc, hloop, hrc⟩ := hostLoop_ok (m + 1) name 0 h (by omega)
      refine ⟨rc, hloop, ?_⟩
      rw [hrc, labelsFrom_zero]
      constructor
      · intro hlabels
        refine ⟨by omega, ?_, hlabels⟩
        rw [hslice, List.head?_cons]
        intro heq
        exact hhyphen (Option.some.inj heq)
      · exact fun hhost => hhost.labels

/-! ## Literals -/

/-- A literal that `inet_pton` recognises. -/
def Literal (pton : InetPton) (ipv4only : Bool) (a : List UInt8) : Prop :=
  isLiteral pton ipv4only a = true

theorem Literal.recognised {a : List UInt8} (h : Literal pton ipv4only a) :
    ∃ family, pton family a = true := by
  rw [Literal, isLiteral, Bool.or_eq_true, Bool.and_eq_true] at h
  rcases h with h | h
  · exact ⟨.inet6, h.2⟩
  · exact ⟨.inet, h⟩

theorem Literal.length {a : List UInt8} (h : Literal pton ipv4only a) (hpton : pton.Documented) :
    a.length < addrzSize := by
  obtain ⟨family, hfamily⟩ := h.recognised
  exact hpton.length family a hfamily

/-- No literal has a bracket or a semicolon. -/
theorem Literal.not_mem {a : List UInt8} {c : UInt8} (h : Literal pton ipv4only a)
    (hpton : pton.Documented) (hc : c = 91 ∨ c = 59) : c ∉ a := by
  intro hmem
  obtain ⟨family, hfamily⟩ := h.recognised
  have hchars := hpton.chars family a hfamily c hmem
  rcases hc with rfl | rfl
  · revert hchars
    decide
  · revert hchars
    decide

/-- One bracket alone is not both of them: what is between two brackets. -/
theorem between_brackets {addr m : Nat} (h : addr + (m + 1) ≤ s.length)
    (hslice : slice s addr (m + 1) = 91 :: slice s (addr + 1) m)
    (hlast : readByte s (addr + m) = .ok 93) :
    ∃ k, m = k + 1 ∧ slice s addr (m + 1) = 91 :: slice s (addr + 1) k ++ [93] := by
  cases m with
  | zero =>
    obtain ⟨c, hc, hsplit⟩ := readByte_last h
    obtain rfl := Except.ok.inj (hlast.symm.trans hc)
    rw [hslice, slice_zero, slice_zero, List.nil_append] at hsplit
    cases hsplit
  | succ k =>
    obtain ⟨c, hc, hsplit⟩ := readByte_last (show addr + 1 + (k + 1) ≤ s.length by omega)
    have hplace : addr + 1 + k = addr + (k + 1) := by omega
    rw [hplace] at hc
    obtain rfl := Except.ok.inj (hlast.symm.trans hc)
    exact ⟨k, rfl, by rw [hslice, hsplit]; rfl⟩

/-- A literal between two brackets is copied without them. -/
theorem literalCopy_bracket {addr m : Nat} (hpton : pton.Documented)
    (h : addr + (m + 1) ≤ s.length) (hs : s.length < 128) (hfirst : readByte s addr = .ok 91)
    (hslice : slice s addr (m + 1) = 91 :: slice s (addr + 1) m) :
    ∃ r, literalCopy s addr (m + 1) = .ok r ∧
      (IsBracketed (Literal pton ipv4only) (slice s addr (m + 1)) ↔
        ∃ addrz, r = some addrz ∧ Literal pton ipv4only addrz) := by
  have hne : ¬m + 1 = 0 := by omega
  have hnotlit : ¬Literal pton ipv4only (slice s addr (m + 1)) := by
    intro hlit
    refine hlit.not_mem hpton (Or.inl rfl) ?_
    rw [hslice]
    exact List.mem_cons_self
  obtain ⟨last, hlast, hsplit⟩ := readByte_last h
  by_cases hclose : last = 93
  · subst hclose
    obtain ⟨k, rfl, hbetween⟩ := between_brackets h hslice hlast
    have hiff : IsBracketed (Literal pton ipv4only) (slice s addr (k + 1 + 1)) ↔
        Literal pton ipv4only (slice s (addr + 1) k) := by
      constructor
      · rintro (hlit | ⟨b, hb, hlit⟩)
        · exact absurd hlit hnotlit
        · rw [hbetween] at hb
          have hb' := (List.cons.inj (List.append_cancel_right hb)).2
          rw [hb']
          exact hlit
      · intro hlit
        exact Or.inr ⟨_, hbetween, hlit⟩
    have hlen := length_slice (show addr + 1 + k ≤ s.length by omega)
    have hminus : sizeT (((k + 1 + 1 : Nat) : Int) - 2) = .ok k := by
      rw [sizeT_ok (by omega) (by omega)]
      congr 1
      omega
    have hplus : sizeT ((k : Int) + 1) = .ok (k + 1) := by
      rw [sizeT_ok (by omega) (by omega)]
      congr 1
    rw [hiff, literalCopy, if_neg hne, hfirst, ok_bind, if_pos rfl, Nat.add_sub_cancel, hlast,
      ok_bind, if_neg (not_not.mpr rfl), hminus, ok_bind, hplus, ok_bind]
    by_cases hlong : k + 1 > addrzSize
    · rw [if_pos hlong]
      refine ⟨none, rfl, ?_, ?_⟩
      · intro hlit
        have hlt := hlit.length hpton
        omega
      · rintro ⟨addrz, hnone, -⟩
        cases hnone
    · rw [if_neg hlong, readBytes_slice (by omega), ok_bind]
      refine ⟨some (slice s (addr + 1) k), rfl, fun hlit => ⟨_, rfl, hlit⟩, ?_⟩
      rintro ⟨addrz, heq, hlit⟩
      cases heq
      exact hlit
  · refine ⟨none, ?_, ?_, ?_⟩
    · rw [literalCopy, if_neg hne, hfirst, ok_bind, if_pos rfl, Nat.add_sub_cancel, hlast,
        ok_bind, if_pos hclose]
      rfl
    · rintro (hlit | ⟨b, hb, -⟩)
      · exact absurd hlit hnotlit
      · rw [hsplit] at hb
        have hend := congrArg List.getLast? hb
        rw [List.getLast?_concat, List.getLast?_concat] at hend
        exact absurd (Option.some.inj hend) hclose
    · rintro ⟨addrz, hnone, -⟩
      cases hnone

/-- What is copied from an address is what is in its brackets, or all of it. -/
theorem literalCopy_ok {addr n : Nat} (hpton : pton.Documented) (h : addr + n ≤ s.length)
    (hs : s.length < 128) :
    ∃ r, literalCopy s addr n = .ok r ∧
      (IsBracketed (Literal pton ipv4only) (slice s addr n) ↔
        ∃ addrz, r = some addrz ∧ Literal pton ipv4only addrz) := by
  have hplain : (slice s addr n).head? ≠ some 91 →
      (IsBracketed (Literal pton ipv4only) (slice s addr n) ↔
        Literal pton ipv4only (slice s addr n)) := by
    intro hhead
    refine ⟨?_, Or.inl⟩
    rintro (hlit | ⟨b, hb, -⟩)
    · exact hlit
    · rw [hb] at hhead
      exact absurd rfl hhead
  have hall : ∀ a, Literal pton ipv4only a ↔
      ∃ addrz, some a = some addrz ∧ Literal pton ipv4only addrz := by
    intro a
    refine ⟨fun hlit => ⟨a, rfl, hlit⟩, ?_⟩
    rintro ⟨addrz, heq, hlit⟩
    cases heq
    exact hlit
  cases n with
  | zero =>
    have hhead : (slice s addr 0).head? ≠ some 91 := by
      rw [slice_zero]
      intro heq
      cases heq
    refine ⟨some (slice s addr 0), ?_, (hplain hhead).trans (hall _)⟩
    rw [literalCopy, if_pos rfl, readBytes_slice h, ok_bind]
    rfl
  | succ m =>
    obtain ⟨first, hfirst, hslice⟩ := readByte_slice h
    by_cases hbracket : first = 91
    · subst hbracket
      exact literalCopy_bracket hpton h hs hfirst hslice
    · have hne : ¬m + 1 = 0 := by omega
      have hhead : (slice s addr (m + 1)).head? ≠ some 91 := by
        rw [hslice, List.head?_cons]
        intro heq
        exact hbracket (Option.some.inj heq)
      have hlen := length_slice h
      have hplus : sizeT (((m + 1 : Nat) : Int) + 1) = .ok (m + 1 + 1) := by
        rw [sizeT_ok (by omega) (by omega)]
        congr 1
      rw [hplain hhead, literalCopy, if_neg hne, hfirst, ok_bind, if_neg hbracket, hplus, ok_bind]
      by_cases hlong : m + 1 + 1 > addrzSize
      · rw [if_pos hlong]
        refine ⟨none, rfl, ?_, ?_⟩
        · intro hlit
          have hlt := hlit.length hpton
          omega
        · rintro ⟨addrz, hnone, -⟩
          cases hnone
      · rw [if_neg hlong, readBytes_slice h, ok_bind]
        exact ⟨some (slice s addr (m + 1)), rfl, hall _⟩

theorem literalResolve_ok {addr n : Nat} (hpton : pton.Documented) (h : addr + n ≤ s.length)
    (hs : s.length < 128) :
    ∃ rc, literalResolve pton ipv4only s addr n = .ok rc ∧ (rc = 0 ∨ rc = portInval) ∧
      (¬rc < 0 ↔ IsBracketed (Literal pton ipv4only) (slice s addr n)) := by
  obtain ⟨r, hcopy, hiff⟩ := literalCopy_ok hpton h hs
  rw [literalResolve, hcopy, ok_bind, hiff]
  cases r with
  | none =>
    refine ⟨portInval, rfl, Or.inr rfl, fun hle => absurd (by decide) hle, ?_⟩
    rintro ⟨addrz, hnone, -⟩
    cases hnone
  | some addrz =>
    refine ⟨_, rfl, ?_⟩
    by_cases hlit : isLiteral pton ipv4only addrz = true
    · rw [if_pos hlit]
      exact ⟨Or.inl rfl, fun _ => ⟨addrz, rfl, hlit⟩, fun _ => by decide⟩
    · rw [if_neg hlit]
      refine ⟨Or.inr rfl, fun hle => absurd (by decide) hle, ?_⟩
      rintro ⟨addrz', heq, hlit'⟩
      cases heq
      exact absurd hlit' hlit

theorem ifaceResolve_ok {addr n : Nat} (hpton : pton.Documented) (h : addr + n ≤ s.length)
    (hs : s.length < 128) :
    ∃ rc, ifaceResolve pton ipv4only s addr n = .ok rc ∧
      (¬rc < 0 ↔ slice s addr n = [42] ∨
        IsBracketed (Literal pton ipv4only) (slice s addr n)) := by
  have hstar : ∃ star : Bool, isAsterisk s addr n = .ok star ∧
      (star = true ↔ slice s addr n = [42]) := by
    rw [isAsterisk]
    by_cases hone : n = 1
    · subst hone
      obtain ⟨c, hc, hslice⟩ := readByte_slice (show addr + (0 + 1) ≤ s.length from h)
      rw [slice_zero] at hslice
      refine ⟨decide (c = 42), by rw [if_pos rfl, hc]; rfl, ?_⟩
      rw [decide_eq_true_iff, hslice, List.cons.injEq]
      exact ⟨fun heq => ⟨heq, rfl⟩, fun heq => heq.1⟩
    · refine ⟨false, by rw [if_neg hone], fun hfalse => Bool.noConfusion hfalse, ?_⟩
      intro heq
      have hlen := length_slice h
      rw [heq] at hlen
      exact absurd hlen.symm hone
  obtain ⟨star, hstareq, hiff⟩ := hstar
  rw [ifaceResolve, hstareq, ok_bind]
  by_cases ht : star = true
  · rw [if_pos ht]
    exact ⟨0, rfl, fun _ => Or.inl (hiff.mp ht), fun _ => by decide⟩
  · rw [if_neg ht]
    obtain ⟨rc, hlit, hcases, hrc⟩ := literalResolve_ok hpton h hs
    rw [hlit, ok_bind]
    refine ⟨_, rfl, ?_⟩
    have hnot : ¬slice s addr n = [42] := fun heq => ht (hiff.mpr heq)
    rw [or_iff_right hnot, ← hrc]
    rcases hcases with rfl | rfl
    · decide
    · decide

theorem hostRejected_ok {addr n : Nat} (hpton : pton.Documented) (h : addr + n ≤ s.length)
    (hs : s.length < 128) :
    ∃ rejected, hostRejected pton ipv4only s addr n = .ok rejected ∧
      (¬rejected = true ↔ IsHostname (slice s addr n) ∨
        IsBracketed (Literal pton ipv4only) (slice s addr n)) := by
  obtain ⟨rc, hdns, hrc⟩ := dnsCheckHostname_ok h
  rw [hostRejected, hdns, ok_bind]
  by_cases hneg : rc < 0
  · rw [if_pos hneg]
    obtain ⟨rc', hlit, -, hrc'⟩ : ∃ rc', literalResolve pton ipv4only s addr n = .ok rc' ∧ _ :=
      literalResolve_ok hpton h hs
    rw [hlit, ok_bind]
    refine ⟨decide (rc' < 0), rfl, ?_⟩
    have hnot : ¬IsHostname (slice s addr n) := fun hhost => hrc.mpr hhost hneg
    rw [decide_eq_true_iff, or_iff_right hnot, hrc']
  · rw [if_neg hneg]
    exact ⟨false, rfl, fun _ => Or.inl (hrc.mp hneg), fun _ => Bool.false_ne_true⟩

/-! ## Addresses -/

theorem length_around (front back : List UInt8) (c : UInt8) :
    (front ++ c :: back).length = front.length + 1 + back.length := by
  rw [List.length_append, List.length_cons]
  omega

theorem slice_mid (front mid back : List UInt8) (c : UInt8) :
    slice (front ++ c :: (mid ++ back)) (front.length + 1) mid.length = mid := by
  rw [slice, ← List.drop_drop, List.drop_left, List.drop_succ_cons, List.drop_zero,
    List.take_left']
  rfl

/-- The port of an address, behind its last colon. -/
theorem port_ok (front port : List UInt8) :
    ∃ rc, portLoop (front ++ 58 :: port) (front.length + 1) 0 port.length = .ok rc ∧
      (¬rc < 0 ↔ IsPort port) := by
  have hlen : (front ++ 58 :: port).length = front.length + 1 + port.length :=
    length_around ..
  obtain ⟨rc, hloop, hrc⟩ :=
    portLoop_ok (s := front ++ 58 :: port) port.length (front.length + 1) 0 (by omega) (by omega)
  rw [slice_back] at hrc
  exact ⟨rc, hloop, Int.not_lt.trans hrc⟩

theorem isConnectAddress_iff {literal : List UInt8 → Prop} {front port : List UInt8}
    (hcolon : 58 ∉ port) : IsConnectAddress literal (front ++ 58 :: port) ↔ IsPort port ∧
    ((59 ∉ front ∧ (IsHostname front ∨ literal front)) ∨
      ∃ iface host, front = iface ++ 59 :: host ∧ 59 ∉ iface ∧
        (iface = [42] ∨ literal iface) ∧ (IsHostname host ∨ literal host)) := by
  constructor
  · rintro ⟨front', port', heq, hcolon', hport, hhost⟩
    obtain ⟨rfl, rfl⟩ := last_unique hcolon hcolon' heq
    exact ⟨hport, hhost⟩
  · rintro ⟨hport, hhost⟩
    exact ⟨front, port, rfl, hcolon, hport, hhost⟩

theorem isBindAddress_iff {literal : List UInt8 → Prop} {front port : List UInt8}
    (hcolon : 58 ∉ port) : IsBindAddress literal (front ++ 58 :: port) ↔ IsPort port ∧
    (front = [42] ∨ literal front) := by
  constructor
  · rintro ⟨front', port', heq, hcolon', hport, hiface⟩
    obtain ⟨rfl, rfl⟩ := last_unique hcolon hcolon' heq
    exact ⟨hport, hiface⟩
  · rintro ⟨hport, hiface⟩
    exact ⟨front, port, rfl, hcolon, hport, hiface⟩

/-- An address with a port. -/
theorem ctcpAddress_port (hpton : pton.Documented) {front port : List UInt8}
    (hs : (front ++ 58 :: port).length < 128) (hcolon : 58 ∉ port) (hport : IsPort port) :
    ∃ rc, ctcpAddress pton ipv4only (front ++ 58 :: port) = .ok rc ∧
      (rc = 0 ↔ IsConnectAddress (IsBracketed (Literal pton ipv4only)) (front ++ 58 :: port)) := by
  have hlen : (front ++ 58 :: port).length = front.length + 1 + port.length :=
    length_around ..
  have hportlen : sizeT (((front ++ 58 :: port).length : Int) - front.length - 1) =
      .ok port.length := by
    rw [sizeT_ok (by omega) (by omega)]
    congr 1
    omega
  obtain ⟨rc, hloop, hrc⟩ := port_ok front port
  have hsemi : 59 ∉ port := hport.not_mem (by decide)
  rw [isConnectAddress_iff hcolon, ctcpAddress, strrchr_eq front port hcolon]
  simp only
  rw [hportlen, ok_bind, hloop, ok_bind, if_neg (hrc.mpr hport)]
  cases hplace : strchr 59 front with
  | none =>
    have hnone := strchr_none.mp hplace
    have hfirst : strchr 59 (front ++ 58 :: port) = none := by
      rw [strchr_none, List.mem_append, List.mem_cons, not_or, not_or]
      exact ⟨hnone, by decide, hsemi⟩
    have hhostlen : sizeT ((front.length : Int) - ((0 : Nat) : Int)) = .ok front.length := by
      rw [sizeT_ok (by omega) (by omega)]
      congr 1
    obtain ⟨rejected, hhost, hrejected⟩ : ∃ rejected,
        hostRejected pton ipv4only (front ++ 58 :: port) 0 front.length = .ok rejected ∧ _ :=
      hostRejected_ok hpton (by omega) hs
    rw [slice_front] at hrejected
    rw [hfirst]
    simp only
    rw [hhostlen, ok_bind, hhost, ok_bind]
    have hiff : ¬rejected = true ↔ IsPort port ∧
        ((59 ∉ front ∧ (IsHostname front ∨ IsBracketed (Literal pton ipv4only) front)) ∨
          ∃ iface host, front = iface ++ 59 :: host ∧ 59 ∉ iface ∧
            (iface = [42] ∨ IsBracketed (Literal pton ipv4only) iface) ∧
            (IsHostname host ∨ IsBracketed (Literal pton ipv4only) host)) := by
      rw [hrejected]
      constructor
      · exact fun h => ⟨hport, Or.inl ⟨hnone, h⟩⟩
      · rintro ⟨-, ⟨-, h⟩ | ⟨iface, host, heq, -⟩⟩
        · exact h
        · rw [heq] at hnone
          exact absurd (List.mem_append_right iface List.mem_cons_self) hnone
    rw [← hiff]
    by_cases hr : rejected = true
    · rw [if_pos hr]
      exact ⟨portInval, rfl, fun heq => absurd heq (by decide), fun hn => absurd hr hn⟩
    · rw [if_neg hr]
      exact ⟨0, rfl, fun _ => hr, fun _ => rfl⟩
  | some i =>
    obtain ⟨iface, host, rfl, hiface, rfl⟩ := strchr_some hplace
    have hassoc : (iface ++ 59 :: host) ++ 58 :: port = iface ++ 59 :: (host ++ 58 :: port) := by
      simp
    have hfirst : strchr 59 ((iface ++ 59 :: host) ++ 58 :: port) = some iface.length := by
      rw [hassoc, strchr_eq iface _ hiface]
    have hfront : (iface ++ 59 :: host).length = iface.length + 1 + host.length :=
      length_around ..
    have hhostlen : sizeT (((iface ++ 59 :: host).length : Int) - ((iface.length + 1 : Nat) : Int)) =
        .ok host.length := by
      rw [sizeT_ok (by omega) (by omega)]
      congr 1
      omega
    obtain ⟨rejected, hhost, hrejected⟩ : ∃ rejected, hostRejected pton ipv4only
        ((iface ++ 59 :: host) ++ 58 :: port) (iface.length + 1) host.length = .ok rejected ∧ _ :=
      hostRejected_ok hpton (by omega) hs
    obtain ⟨rc', hresolve, hrc'⟩ : ∃ rc', ifaceResolve pton ipv4only
        ((iface ++ 59 :: host) ++ 58 :: port) 0 iface.length = .ok rc' ∧ _ :=
      ifaceResolve_ok hpton (by omega) hs
    rw [hassoc, slice_mid] at hrejected
    rw [hassoc, slice_front] at hrc'
    rw [hfirst]
    simp only
    rw [hhostlen, ok_bind, hhost, ok_bind]
    have hiff : (¬rejected = true ∧ ¬rc' < 0) ↔ IsPort port ∧
        ((59 ∉ iface ++ 59 :: host ∧ (IsHostname (iface ++ 59 :: host) ∨
            IsBracketed (Literal pton ipv4only) (iface ++ 59 :: host))) ∨
          ∃ iface' host', iface ++ 59 :: host = iface' ++ 59 :: host' ∧ 59 ∉ iface' ∧
            (iface' = [42] ∨ IsBracketed (Literal pton ipv4only) iface') ∧
            (IsHostname host' ∨ IsBracketed (Literal pton ipv4only) host')) := by
      rw [hrejected, hrc']
      constructor
      · rintro ⟨hh, hi⟩
        exact ⟨hport, Or.inr ⟨iface, host, rfl, hiface, hi, hh⟩⟩
      · rintro ⟨-, ⟨hno, -⟩ | ⟨iface', host', heq, hiface', hi, hh⟩⟩
        · exact absurd (List.mem_append_right iface List.mem_cons_self) hno
        · obtain ⟨rfl, rfl⟩ := first_unique hiface hiface' heq
          exact ⟨hh, hi⟩
    rw [← hiff]
    by_cases hr : rejected = true
    · rw [if_pos hr]
      exact ⟨portInval, rfl, fun heq => absurd heq (by decide), fun hn => absurd hr hn.1⟩
    · rw [if_neg hr, hresolve, ok_bind]
      by_cases hneg : rc' < 0
      · rw [if_pos hneg]
        exact ⟨ifaceNodev, rfl, fun heq => absurd heq (by decide), fun hn => absurd hneg hn.2⟩
      · rw [if_neg hneg]
        exact ⟨0, rfl, fun _ => ⟨hr, hneg⟩, fun _ => rfl⟩

/-- An address with a port, or without one. -/
theorem ctcpAddress_ok (hpton : pton.Documented) (hs : s.length < 128) :
    ∃ rc, ctcpAddress pton ipv4only s = .ok rc ∧
      (rc = 0 ↔ IsConnectAddress (IsBracketed (Literal pton ipv4only)) s) := by
  cases hplace : strrchr 58 s with
  | none =>
    refine ⟨portInval, by rw [ctcpAddress, hplace]; rfl, fun heq => absurd heq (by decide), ?_⟩
    rintro ⟨front, port, rfl, -⟩
    exact absurd (List.mem_append_right front List.mem_cons_self) (strrchr_none.mp hplace)
  | some colon =>
    obtain ⟨front, port, rfl, hcolon, rfl⟩ := strrchr_some hplace
    by_cases hport : IsPort port
    · exact ctcpAddress_port hpton hs hcolon hport
    · obtain ⟨rc, hloop, hrc⟩ := port_ok front port
      have hneg : rc < 0 := by
        by_contra hge
        exact hport (hrc.mp hge)
      have hlen : (front ++ 58 :: port).length = front.length + 1 + port.length :=
        length_around ..
      have hportlen : sizeT (((front ++ 58 :: port).length : Int) - front.length - 1) =
          .ok port.length := by
        rw [sizeT_ok (by omega) (by omega)]
        congr 1
        omega
      refine ⟨portInval, ?_, fun heq => absurd heq (by decide), ?_⟩
      · rw [ctcpAddress, hplace]
        simp only
        rw [hportlen, ok_bind, hloop, ok_bind, if_pos hneg]
        rfl
      · intro haddr
        exact absurd ((isConnectAddress_iff hcolon).mp haddr).1 hport

/-- `grid_ctcp_create` reads nothing but the address, and accepts what the grammar has. -/
theorem ctcpAddress_iff (hpton : pton.Documented) (hs : s.length < 128) :
    ∃ rc, ctcpAddress pton ipv4only s = .ok rc ∧
      (rc = 0 ↔ IsConnectAddress (IsBracketed (Literal pton ipv4only)) s) :=
  ctcpAddress_ok hpton hs

/-- An `inet_pton` that knows no address but `::1`. -/
def loopbackOnly : InetPton := fun family a => decide (family = .inet6 ∧ a = [58, 58, 49])

theorem loopbackOnly_documented : loopbackOnly.Documented where
  length := by
    intro family a h
    obtain ⟨-, rfl⟩ := of_decide_eq_true h
    decide
  chars := by
    intro family a h c hc
    obtain ⟨-, rfl⟩ := of_decide_eq_true h
    rw [List.mem_cons, List.mem_cons, List.mem_singleton] at hc
    rcases hc with rfl | rfl | rfl
    · exact Or.inl ⟨by decide, by decide⟩
    · exact Or.inl ⟨by decide, by decide⟩
    · exact Or.inl ⟨by decide, by decide⟩

/-- `[::1]:5555`. -/
def bracketedLoopback : List UInt8 := [91, 58, 58, 49, 93, 58, 53, 53, 53, 53]

theorem ctcpAddress_iff_bracketed : ∃ rc, ctcpAddress loopbackOnly false bracketedLoopback = .ok rc ∧
    (rc = 0 ↔ IsConnectAddress (IsBracketed (Literal loopbackOnly false)) bracketedLoopback) :=
  ctcpAddress_iff loopbackOnly_documented (by decide)

/-- The host is no literal for `inet_pton`, because of its brackets, and the address is accepted. -/
theorem brackets_accepted : loopbackOnly.Documented ∧ bracketedLoopback.length < 128 ∧
    ctcpAddress loopbackOnly false bracketedLoopback = .ok 0 ∧
    ¬IsConnectAddress (Literal loopbackOnly false) bracketedLoopback := by
  refine ⟨loopbackOnly_documented, by decide, rfl, ?_⟩
  have hsplit : bracketedLoopback = [91, 58, 58, 49, 93] ++ 58 :: [53, 53, 53, 53] := rfl
  rw [hsplit, isConnectAddress_iff (by decide)]
  rintro ⟨-, ⟨-, hhost | hlit⟩ | ⟨iface, host, heq, -⟩⟩
  · have hlabel := hhost.labels [91, 58, 58, 49, 93] (by decide)
    exact absurd (hlabel.2.2 91 List.mem_cons_self) (by decide)
  · have hno : isLiteral loopbackOnly false [91, 58, 58, 49, 93] = false := rfl
    exact Bool.false_ne_true (hno.symm.trans hlit)
  · have hmem : (59 : UInt8) ∈ [91, 58, 58, 49, 93] := by
      rw [heq]
      exact List.mem_append_right iface List.mem_cons_self
    exact absurd hmem (by decide)

/-- So does `grid_btcp_create`. -/
theorem btcpAddress_iff (hpton : pton.Documented) (hs : s.length < 128) :
    ∃ rc, btcpAddress pton ipv4only s = .ok rc ∧
      (rc = 0 ↔ IsBindAddress (IsBracketed (Literal pton ipv4only)) s) := by
  cases hplace : strrchr 58 s with
  | none =>
    refine ⟨portInval, by rw [btcpAddress, hplace]; rfl, fun heq => absurd heq (by decide), ?_⟩
    rintro ⟨front, port, rfl, -⟩
    exact absurd (List.mem_append_right front List.mem_cons_self) (strrchr_none.mp hplace)
  | some colon =>
    obtain ⟨front, port, rfl, hcolon, rfl⟩ := strrchr_some hplace
    obtain ⟨rc, hloop, hrc⟩ := port_ok front port
    obtain ⟨rc', hresolve, hrc'⟩ : ∃ rc', ifaceResolve pton ipv4only
        (front ++ 58 :: port) 0 front.length = .ok rc' ∧ _ :=
      ifaceResolve_ok hpton (by simp) hs
    rw [slice_front] at hrc'
    have hlen : (front ++ 58 :: port).length = front.length + 1 + port.length :=
      length_around ..
    have hportlen : sizeT (((front ++ 58 :: port).length : Int) - ((front.length : Int) + 1)) =
        .ok port.length := by
      rw [sizeT_ok (by omega) (by omega)]
      congr 1
      omega
    rw [isBindAddress_iff hcolon, ← hrc, ← hrc', btcpAddress, hplace]
    simp only
    rw [hportlen, ok_bind, hloop, ok_bind]
    by_cases hneg : rc < 0
    · rw [if_pos hneg]
      exact ⟨portInval, rfl, fun heq => absurd heq (by decide), fun h => absurd hneg h.1⟩
    · rw [if_neg hneg, hresolve, ok_bind]
      by_cases hneg' : rc' < 0
      · rw [if_pos hneg']
        exact ⟨ifaceNodev, rfl, fun heq => absurd heq (by decide), fun h => absurd hneg' h.2⟩
      · rw [if_neg hneg']
        exact ⟨0, rfl, fun _ => ⟨hneg, hneg'⟩, fun _ => rfl⟩

end GridMq.Transports
