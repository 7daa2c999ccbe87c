import GridMq.Transports.Base64

set_option autoImplicit false

/-!
# Within the buffers and the tables (`src/transports/utils/base64.c`)

Every write is behind a check of the buffer, and every index of the encoder has six bits.  The
decoder takes its index from a character, and a character that is not ASCII is negative: the loop
comes to it unless it ends before.
-/

namespace GridMq.Transports.Base64

/-! ## The encoder -/

/-- Nothing is accessed that is not there. -/
def Within {α : Type} (r : Except Stop α) : Prop := ∀ o, r ≠ .error (.overrun o)

theorem within_ok {α : Type} (a : α) : Within (.ok a) := nofun

theorem Within.bind {α β : Type} {x : Except Stop α} {f : α → Except Stop β} (hx : Within x)
    (hf : ∀ a, x = .ok a → Within (f a)) : Within (x >>= f) := by
  cases x with
  | error stop =>
    intro o heq
    rw [error_bind] at heq
    exact hx o (congrArg Except.error (Except.error.inj heq))
  | ok a => exact hf a rfl

/-- What a write does where there is room. -/
theorem Coding.emit_lt {s : Coding} (ch : UInt8) (h : s.io < s.out.length) :
    s.emit ch = .ok { s with out := s.out.set s.io ch, io := increment s.io } := by
  rw [Coding.emit, if_neg (Nat.not_le.mpr h), put, if_pos h]
  rfl

theorem Coding.emit_ge {s : Coding} (ch : UInt8) (h : s.out.length ≤ s.io) :
    s.emit ch = .error (.enobufs s.out) := if_pos h

theorem Coding.emit_within (s : Coding) (ch : UInt8) : Within (s.emit ch) := by
  rcases Nat.lt_or_ge s.io s.out.length with hlt | hge
  · rw [Coding.emit_lt ch hlt]
    exact within_ok _
  · rw [Coding.emit_ge ch hge]
    exact nofun

/-- The index of an encoding has six bits. -/
theorem tableAt_encodeMap {k : Nat} (hk : k < 64) :
    tableAt encodeMap k = .ok (encodeMap.getD k 0) := by
  have hall : ∀ k : Fin 64, tableAt encodeMap k.val = .ok (encodeMap.getD k.val 0) := by decide
  exact hall ⟨k, hk⟩

theorem and_lt (word : BitVec 32) : (word &&& 63).toNat < 64 := by
  rw [BitVec.toNat_and]
  exact Nat.lt_succ_of_le Nat.and_le_right

theorem Coding.emitDigit_eq (s : Coding) (word : BitVec 32) :
    s.emitDigit word = s.emit (encodeMap.getD (word &&& 63).toNat 0) := by
  rw [Coding.emitDigit, tableAt_encodeMap (and_lt word), ok_bind]

theorem Coding.encodeGroups_within (turns : Nat) :
    ∀ s : Coding, Within (Coding.encodeGroups turns s) := by
  induction turns with
  | zero => exact fun s => within_ok s
  | succ turns ih =>
    intro s
    rw [Coding.encodeGroups]
    split
    · simp only
      rw [Coding.emitDigit_eq]
      exact (Coding.emit_within _ _).bind fun s' _ => ih s'
    · exact within_ok s

theorem encodeLoop_within (input : List UInt8) (fuel : Nat) :
    ∀ (s : Coding) (r : Except Stop Coding), encodeLoop input fuel s = some r → Within r := by
  induction fuel with
  | zero => exact nofun
  | succ fuel ih =>
    intro s r hloop
    rw [encodeLoop] at hloop
    cases hch : input[s.ii]? with
    | none =>
      simp only [hch, Option.some.injEq] at hloop
      rw [← hloop]
      exact within_ok s
    | some ch =>
      simp only [hch] at hloop
      have hbyte : Within (s.encodeByte ch) := Coding.encodeGroups_within _ _
      cases hencode : s.encodeByte ch with
      | error stop =>
        simp only [hencode, Option.some.injEq] at hloop
        rw [← hloop]
        rw [hencode] at hbyte
        exact fun o heq => hbyte o (congrArg Except.error (Except.error.inj heq))
      | ok s' =>
        simp only [hencode] at hloop
        exact ih _ r hloop

theorem Coding.encodePad_within (turns : Nat) :
    ∀ s : Coding, Within (Coding.encodePad turns s) := by
  induction turns with
  | zero => exact fun s => within_ok s
  | succ turns ih =>
    intro s
    rw [Coding.encodePad]
    split
    · exact (Coding.emit_within _ _).bind fun s' _ => ih s'
    · exact within_ok s

theorem Coding.encodeEnd_within (s : Coding) : Within s.encodeEnd := by
  have hrest : Within s.encodeRest := by
    unfold Coding.encodeRest
    split
    · simp only
      rw [Coding.emitDigit_eq]
      exact Coding.emit_within _ _
    · exact within_ok s
  refine hrest.bind fun s₁ _ => (Coding.encodePad_within 3 s₁).bind fun s₂ _ => ?_
  unfold Coding.terminate
  split
  · exact nofun
  · rename_i hroom
    rw [put, if_pos (Nat.not_le.mp hroom)]
    exact within_ok _

/-- A function that stays within the buffers and the tables returns. -/
theorem Within.returned {r : Except Stop Coding} (h : Within r) :
    ∀ o, Base64.returned r ≠ .error o := by
  intro o
  match r with
  | .ok s => exact nofun
  | .error (.enobufs out) => exact nofun
  | .error (.overrun o') => exact absurd rfl (h o')

/-- The encoder stays within the buffer, whatever its input is. -/
theorem encode_within (fuel : Nat) (input out : List UInt8) (o : Overrun) :
    encode fuel input out ≠ some (.error o) := by
  intro hencode
  obtain ⟨r, hloop, hreturned⟩ := Option.map_eq_some_iff.mp hencode
  have hall : Within (r >>= Coding.encodeEnd) :=
    (encodeLoop_within input fuel _ r hloop).bind fun s _ => s.encodeEnd_within
  exact hall.returned o hreturned

/-! ## The characters of the decoder -/

/-- The characters that stand for six bits. -/
def isDigit (ch : UInt8) : Bool :=
  ch != pad && decide (ch.toNat < 128) && (decodeMap[ch.toNat]? != some 0xFF)

/-- The characters that the loop goes on after. -/
def passes (ch : UInt8) : Bool := isspace ch || isDigit ch

/-- The bytes that some characters make up. -/
def due (chars : List UInt8) : Nat := 6 * (chars.filter fun ch => !isspace ch).length / 8

/-- The loop comes to a character: it goes on after the ones before, and there is room for what
they make up. -/
structure Reached (input : List UInt8) (outLen i : Nat) : Prop where
  passed : ∀ ch ∈ input.take i, passes ch = true
  room : due (input.take i) ≤ outLen

/-- The loop comes to a character that is not ASCII. -/
def ReachesNonAscii (input : List UInt8) (outLen : Nat) : Prop :=
  ∃ i ch, i < 2 ^ 32 ∧ input[i]? = some ch ∧ 128 ≤ ch.toNat ∧ Reached input outLen i

theorem toInt_of_lt {ch : UInt8} (h : ch.toNat < 128) : ch.toInt8.toInt = ch.toNat := by
  rw [← Int8.toInt_toBitVec, UInt8.toBitVec_toInt8, BitVec.toInt_eq_toNat_cond,
    if_pos (by simp; omega)]
  simp

theorem toInt_of_ge {ch : UInt8} (h : 128 ≤ ch.toNat) : ch.toInt8.toInt = ch.toNat - 256 := by
  rw [← Int8.toInt_toBitVec, UInt8.toBitVec_toInt8, BitVec.toInt_eq_toNat_cond,
    if_neg (by simp; omega)]
  simp

/-- An ASCII character has its place in the table. -/
theorem tableAt_of_lt {ch : UInt8} (h : ch.toNat < 128) :
    ∃ value, decodeMap[ch.toNat]? = some value ∧
      tableAt decodeMap ch.toInt8.toInt = .ok value := by
  have hlength : decodeMap.length = 256 := by
    rw [decodeMap, List.length_append, List.length_replicate]
    rfl
  obtain ⟨value, hvalue⟩ : ∃ value, decodeMap[ch.toNat]? = some value :=
    ⟨_, List.getElem?_eq_getElem (by omega)⟩
  refine ⟨value, hvalue, ?_⟩
  rw [toInt_of_lt h, tableAt, if_neg (by omega), Int.toNat_natCast, hvalue]

theorem tableAt_of_ge {ch : UInt8} (h : 128 ≤ ch.toNat) :
    tableAt decodeMap ch.toInt8.toInt = .error (.overrun (.table (ch.toNat - 256))) := by
  have hlt := ch.toNat_lt
  rw [toInt_of_ge h, tableAt, if_pos (by omega)]

theorem isspace_of_ge {ch : UInt8} (h : 128 ≤ ch.toNat) : isspace ch = false := by
  have h20 : ch ≠ 0x20 := by
    rintro rfl
    exact absurd h (by decide)
  have h0d : ¬ch ≤ 0x0d := by
    rw [UInt8.le_iff_toNat_le]
    have : (0x0d : UInt8).toNat = 13 := rfl
    omega
  simp [isspace, h20, h0d]

/-- A space does nothing. -/
theorem Coding.decodeChar_space (s : Coding) {ch : UInt8} (h : isspace ch = true) :
    s.decodeChar ch = .ok (.next s) := if_pos h

/-- A digit is shifted in, and a byte is written when there are eight bits. -/
theorem Coding.decodeChar_digit (s : Coding) {ch : UInt8} (hspace : isspace ch = false)
    (h : isDigit ch = true) :
    ∃ value, decodeMap[ch.toNat]? = some value ∧
      ∃ s' : Coding, s' = { s with
        v := s.v <<< 6 ||| value.toBitVec.setWidth 32, rem := s.rem + 6 } ∧
      s.decodeChar ch =
        if s'.rem ≥ 8 then
          (Coding.emit { s' with rem := s'.rem - 8 }
            (UInt8.ofBitVec ((s'.v >>> (s'.rem - 8) &&& 255).setWidth 8))).map Flow.next
        else .ok (.next s') := by
  simp only [isDigit, Bool.and_eq_true, bne_iff_ne, decide_eq_true_eq] at h
  obtain ⟨⟨hpad, hlt⟩, hff⟩ := h
  obtain ⟨value, hvalue, htable⟩ := tableAt_of_lt hlt
  have hne : value ≠ 0xFF := by
    rintro rfl
    exact hff hvalue
  refine ⟨value, hvalue, _, rfl, ?_⟩
  rw [Coding.decodeChar, if_neg (by rw [hspace]; exact Bool.false_ne_true), if_neg hpad, htable,
    ok_bind, if_neg hne]
  simp only
  split
  · cases Coding.emit _ _ with
    | error stop => rfl
    | ok s' => rfl
  · rfl

/-- The loop ends at any other ASCII character. -/
theorem Coding.decodeChar_done (s : Coding) {ch : UInt8} (hlt : ch.toNat < 128)
    (h : passes ch = false) : s.decodeChar ch = .ok (.done s) := by
  rw [passes, Bool.or_eq_false_iff] at h
  rw [Coding.decodeChar, if_neg (by rw [h.1]; exact Bool.false_ne_true)]
  by_cases hpad : ch = pad
  · rw [if_pos hpad]
  · obtain ⟨value, hvalue, htable⟩ := tableAt_of_lt hlt
    have hff : value = 0xFF := by
      by_contra hne
      have hdigit : isDigit ch = true := by
        simp [isDigit, hpad, hlt, hvalue, hne]
      rw [h.2] at hdigit
      exact Bool.noConfusion hdigit
    rw [if_neg hpad, htable, ok_bind, if_pos hff]
    rfl

/-- A character that is not ASCII is no index. -/
theorem Coding.decodeChar_ge (s : Coding) {ch : UInt8} (h : 128 ≤ ch.toNat) :
    s.decodeChar ch = .error (.overrun (.table (ch.toNat - 256))) := by
  have hpad : ch ≠ pad := by
    rintro rfl
    exact absurd h (by decide)
  rw [Coding.decodeChar, if_neg (by rw [isspace_of_ge h]; exact Bool.false_ne_true), if_neg hpad,
    tableAt_of_ge h, error_bind]

/-! ## The decoder -/

/-- A character that the loop goes on after is an ASCII one. -/
theorem lt_of_passes {ch : UInt8} (h : passes ch = true) : ch.toNat < 128 := by
  rcases Bool.or_eq_true_iff.mp h with hspace | hdigit
  · by_contra hge
    rw [isspace_of_ge (Nat.not_lt.mp hge)] at hspace
    exact Bool.noConfusion hspace
  · simp only [isDigit, Bool.and_eq_true, decide_eq_true_eq] at hdigit
    exact hdigit.1.2

theorem Reached.of_succ {input : List UInt8} {outLen i : Nat}
    (h : Reached input outLen (i + 1)) : Reached input outLen i := by
  have hsub : (input.take i).Sublist (input.take (i + 1)) :=
    (List.take_prefix_take_left (Nat.le_succ i)).sublist
  refine ⟨fun ch hch => h.passed ch (hsub.subset hch), Nat.le_trans ?_ h.room⟩
  have hlength := (hsub.filter fun ch => !isspace ch).length_le
  unfold due
  omega

/-- The characters that count, up to one more of them. -/
theorem count_succ {input : List UInt8} {i : Nat} {ch : UInt8} (hch : input[i]? = some ch) :
    ((input.take (i + 1)).filter fun ch => !isspace ch).length =
      ((input.take i).filter fun ch => !isspace ch).length + if isspace ch then 0 else 1 := by
  rw [List.take_add_one, hch, List.filter_append, List.length_append]
  cases hspace : isspace ch <;> simp [hspace]

/-- The decoder has taken in what is in front of `ii`, for the first time. -/
structure Coding.Decodes (s : Coding) (input : List UInt8) (outLen : Nat) : Prop where
  bound : s.ii < 2 ^ 32
  io : s.io = due (input.take s.ii)
  rem : s.rem = 6 * ((input.take s.ii).filter fun ch => !isspace ch).length % 8
  length : s.out.length = outLen

theorem decodes_start (input out : List UInt8) :
    Coding.Decodes { out := out } input out.length where
  bound := Nat.two_pow_pos 32
  io := by simp [due]
  rem := by simp
  length := rfl

/-- The next character is one further. -/
theorem Coding.decodes_succ {s : Coding} {input : List UInt8} {outLen i n : Nat} (hii : s.ii = i)
    (hlt : i + 1 < 2 ^ 32)
    (hcount : ((input.take (i + 1)).filter fun ch => !isspace ch).length = n)
    (hio : s.io = 6 * n / 8) (hrem : s.rem = 6 * n % 8) (hlength : s.out.length = outLen) :
    Coding.Decodes { s with ii := increment s.ii } input outLen := by
  have hincrement : increment s.ii = i + 1 := by
    rw [hii]
    exact Nat.mod_eq_of_lt hlt
  rw [hincrement]
  refine ⟨hlt, ?_, ?_, hlength⟩
  · rw [due, hcount]
    exact hio
  · rw [hcount]
    exact hrem

/-- A character that the loop goes on after is taken in, unless there is no room for what it makes
up. -/
theorem Coding.Decodes.pass {s : Coding} {input : List UInt8} {outLen : Nat}
    (h : s.Decodes input outLen) (hreached : Reached input outLen s.ii) {ch : UInt8}
    (hch : input[s.ii]? = some ch) (hpass : passes ch = true) :
    (¬Reached input outLen (s.ii + 1) ∧ s.decodeChar ch = .error (.enobufs s.out)) ∨
    ∃ s', s.decodeChar ch = .ok (.next s') ∧ s'.ii = s.ii ∧ Reached input outLen (s.ii + 1) ∧
      (s.ii + 1 < 2 ^ 32 →
        Coding.Decodes { s' with ii := increment s'.ii } input outLen) := by
  obtain ⟨n, hn⟩ : ∃ n, ((input.take s.ii).filter fun ch => !isspace ch).length = n := ⟨_, rfl⟩
  have hcount := count_succ hch
  have hle : n ≤ s.ii := by
    rw [← hn]
    exact Nat.le_trans (List.length_filter_le _ _) (List.length_take_le _ _)
  have hpassed : ∀ c ∈ input.take (s.ii + 1), passes c = true := by
    intro c hc
    rw [List.take_add_one, hch, List.mem_append] at hc
    rcases hc with hold | hnew
    · exact hreached.passed c hold
    · rw [List.mem_singleton.mp hnew]
      exact hpass
  have hio : s.io = 6 * n / 8 := by rw [h.io, due, hn]
  have hrem : s.rem = 6 * n % 8 := by rw [h.rem, hn]
  have hroom : 6 * n / 8 ≤ outLen := by
    rw [← hn]
    exact hreached.room
  rw [hn] at hcount
  cases hspace : isspace ch with
  | true =>
    rw [hspace, if_pos rfl, Nat.add_zero] at hcount
    refine Or.inr ⟨s, s.decodeChar_space hspace, rfl, ⟨hpassed, ?_⟩, fun hlt => ?_⟩
    · rwa [due, hcount]
    · exact Coding.decodes_succ rfl hlt hcount hio hrem h.length
  | false =>
    rw [hspace, if_neg Bool.false_ne_true] at hcount
    have hdigit : isDigit ch = true := by
      rw [passes, hspace, Bool.false_or] at hpass
      exact hpass
    obtain ⟨value, -, s', hs', hdecode⟩ := s.decodeChar_digit hspace hdigit
    have hrem' : s'.rem = s.rem + 6 := by rw [hs']
    have hio' : s'.io = s.io := by rw [hs']
    have hout' : s'.out = s.out := by rw [hs']
    have hii' : s'.ii = s.ii := by rw [hs']
    rw [hdecode]
    by_cases hfull : s'.rem ≥ 8
    · rw [if_pos hfull]
      rcases Nat.lt_or_ge s.io outLen with hlt | hge
      · have hemit : s'.io < s'.out.length := by
          rw [hio', hout', h.length]
          exact hlt
        rw [Coding.emit_lt (s := { s' with rem := s'.rem - 8 }) _ hemit]
        have hdue : 6 * (n + 1) / 8 = s.io + 1 := by omega
        have hincrement : increment s'.io = s.io + 1 := by
          rw [hio']
          have hbound := h.bound
          exact Nat.mod_eq_of_lt (by omega)
        refine Or.inr ⟨_, rfl, hii', ⟨hpassed, ?_⟩, fun hlt' => ?_⟩
        · rw [due, hcount, hdue]
          exact hlt
        · refine Coding.decodes_succ hii' hlt' hcount ?_ ?_ ?_
          · rw [hdue]
            exact hincrement
          · show s'.rem - 8 = _
            omega
          · show (s'.out.set _ _).length = outLen
            rw [List.length_set, hout', h.length]
      · have hemit : s'.out.length ≤ s'.io := by
          rw [hio', hout', h.length]
          exact hge
        rw [Coding.emit_ge (s := { s' with rem := s'.rem - 8 }) _ hemit, ← hout']
        refine Or.inl ⟨fun hnext => ?_, rfl⟩
        have hmore := hnext.room
        rw [due, hcount] at hmore
        omega
    · rw [if_neg hfull]
      refine Or.inr ⟨s', rfl, hii', ⟨hpassed, ?_⟩, fun hlt => ?_⟩
      · rw [due, hcount]
        omega
      · exact Coding.decodes_succ hii' hlt hcount (by omega) (by omega) (by rw [hout', h.length])

/-- The decoder gets to the character. -/
theorem Reached.decodes {input out : List UInt8} {i : Nat} (hi : i < 2 ^ 32)
    (hlength : i ≤ input.length) (h : Reached input out.length i) :
    ∃ s : Coding, s.ii = i ∧ s.Decodes input out.length ∧
      ∀ fuel, decodeLoop input (i + fuel) { out := out } = decodeLoop input fuel s := by
  induction i with
  | zero => exact ⟨{ out := out }, rfl, decodes_start input out, fun fuel => by rw [Nat.zero_add]⟩
  | succ i ih =>
    obtain ⟨s, rfl, hs, hloop⟩ := ih (by omega) (by omega) h.of_succ
    obtain ⟨ch, hch⟩ : ∃ ch, input[s.ii]? = some ch := ⟨_, List.getElem?_eq_getElem hlength⟩
    have hmem : ch ∈ input.take (s.ii + 1) := by
      rw [List.take_add_one, hch]
      exact List.mem_append_right _ (List.mem_singleton_self _)
    rcases hs.pass h.of_succ hch (h.passed _ hmem) with ⟨hnot, -⟩ | ⟨s', hdecode, hii, -, hnext⟩
    · exact absurd h hnot
    · refine ⟨{ s' with ii := increment s'.ii }, ?_, hnext hi, fun fuel => ?_⟩
      · show increment s'.ii = s.ii + 1
        rw [hii]
        exact Nat.mod_eq_of_lt hi
      · rw [Nat.add_assoc, hloop, Nat.add_comm 1 fuel, decodeLoop, hch]
        simp only [hdecode]

/-- The index of a character that is not ASCII and that the loop comes to is not in the table. -/
theorem ReachesNonAscii.decode {input out : List UInt8} (h : ReachesNonAscii input out.length) :
    ∃ fuel o, decode fuel input out = some (.error o) := by
  obtain ⟨i, ch, hi, hch, hge, hreached⟩ := h
  have hlength : i < input.length := (List.getElem?_eq_some_iff.mp hch).1
  obtain ⟨s, rfl, -, hloop⟩ := hreached.decodes hi (Nat.le_of_lt hlength)
  refine ⟨s.ii + 1, .table (ch.toNat - 256), ?_⟩
  rw [Base64.decode, hloop, decodeLoop, hch]
  simp only [s.decodeChar_ge hge]
  rfl

theorem Coding.decodeChar_within (s : Coding) {ch : UInt8} (h : ch.toNat < 128) :
    Within (s.decodeChar ch) := by
  cases hpass : passes ch with
  | false =>
    rw [s.decodeChar_done h hpass]
    exact within_ok _
  | true =>
    cases hspace : isspace ch with
    | true =>
      rw [s.decodeChar_space hspace]
      exact within_ok _
    | false =>
      rw [passes, hspace, Bool.false_or] at hpass
      obtain ⟨value, -, s', -, hdecode⟩ := s.decodeChar_digit hspace hpass
      rw [hdecode]
      split
      · exact (Coding.emit_within _ _).bind fun s'' _ => within_ok _
      · exact within_ok _

/-- The decoder is behind characters that it went on after, and comes to none that is not ASCII; or
it has begun again, and there are no such characters. -/
theorem decodeLoop_within {input : List UInt8} {outLen : Nat}
    (hnone : ¬ReachesNonAscii input outLen) (fuel : Nat) :
    ∀ (s : Coding) (r : Except Stop Coding), s.ii < 2 ^ 32 →
      (s.Decodes input outLen ∧ Reached input outLen s.ii ∨
        ∀ ch ∈ input.take (2 ^ 32), ch.toNat < 128) →
      decodeLoop input fuel s = some r → Within r := by
  induction fuel with
  | zero => exact nofun
  | succ fuel ih =>
    intro s r hii hinv hloop
    rw [decodeLoop] at hloop
    cases hch : input[s.ii]? with
    | none =>
      simp only [hch, Option.some.injEq] at hloop
      rw [← hloop]
      exact within_ok s
    | some ch =>
      simp only [hch] at hloop
      have hascii : ch.toNat < 128 := by
        rcases hinv with ⟨-, hreached⟩ | hall
        · by_contra hge
          exact hnone ⟨s.ii, ch, hii, hch, Nat.not_lt.mp hge, hreached⟩
        · have htake : (input.take (2 ^ 32))[s.ii]? = some ch := by
            rw [List.getElem?_take_of_lt hii]
            exact hch
          exact hall ch (List.mem_of_getElem? htake)
      have hwithin := s.decodeChar_within hascii
      cases hdecode : s.decodeChar ch with
      | error stop =>
        simp only [hdecode, Option.some.injEq] at hloop
        rw [← hloop]
        rw [hdecode] at hwithin
        exact fun o heq => hwithin o (congrArg Except.error (Except.error.inj heq))
      | ok flow =>
        cases flow with
        | done s' =>
          simp only [hdecode, Option.some.injEq] at hloop
          rw [← hloop]
          exact within_ok s'
        | next s' =>
          simp only [hdecode] at hloop
          refine ih _ r (Nat.mod_lt _ (Nat.two_pow_pos 32)) ?_ hloop
          rcases hinv with ⟨hs, hreached⟩ | hall
          · have hpass : passes ch = true := by
              by_contra hnot
              rw [s.decodeChar_done hascii (Bool.not_eq_true _ ▸ hnot)] at hdecode
              exact Flow.noConfusion (Except.ok.inj hdecode)
            rcases hs.pass hreached hch hpass with ⟨-, herror⟩ | ⟨t, hnext, hii', hreached', ht⟩
            · rw [herror] at hdecode
              exact absurd hdecode nofun
            · rw [hnext] at hdecode
              obtain rfl := Flow.next.inj (Except.ok.inj hdecode)
              rcases Nat.lt_or_ge (s.ii + 1) (2 ^ 32) with hlt | hge
              · refine Or.inl ⟨ht hlt, ?_⟩
                show Reached input outLen (increment t.ii)
                have hincrement : increment s.ii = s.ii + 1 := Nat.mod_eq_of_lt hlt
                rw [hii', hincrement]
                exact hreached'
              · refine Or.inr fun c hc => lt_of_passes (hreached'.passed c ?_)
                rwa [show s.ii + 1 = 2 ^ 32 by omega]
          · exact Or.inr hall

/-- The decoder stays within the buffer and the table unless it comes to a character that is not
ASCII. -/
theorem decode_within {input out : List UInt8} (hnone : ¬ReachesNonAscii input out.length)
    (fuel : Nat) (o : Overrun) : decode fuel input out ≠ some (.error o) := by
  intro hdecode
  obtain ⟨r, hloop, hreturned⟩ := Option.map_eq_some_iff.mp hdecode
  have hstart : Reached input out.length 0 := ⟨nofun, by simp [due]⟩
  have hall : Within (r >>= Coding.decodeEnd) := by
    refine (decodeLoop_within hnone fuel _ r (Nat.two_pow_pos 32)
      (Or.inl ⟨decodes_start input out, hstart⟩) hloop).bind fun s _ => ?_
    unfold Coding.decodeEnd
    split
    · exact Coding.emit_within _ _
    · exact within_ok s
  exact hall.returned o hreturned

end GridMq.Transports.Base64
