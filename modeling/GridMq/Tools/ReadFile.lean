import GridMq.Library.Memory
import Mathlib.Algebra.Group.Nat.Defs

set_option autoImplicit false

/-!
# Reading a file for an option (`src/tools/options.c`)

`GRID_OPT_READ_FILE` reads the file into a buffer that grows, until the stream reports its end.
What a call of `fread` brings is up to the stream: some of the bytes, an error, or the end.
-/

namespace GridMq.Tools

open GridMq.Library

/-! ## Streams -/

/-- What a stream brings next: bytes, of which as many come at once as are asked for, or bytes
and then an error. -/
inductive Piece where
  | data (bytes : List UInt8)
  | error (bytes : List UInt8)
  deriving DecidableEq, Repr

/-- The bytes of a piece. -/
def Piece.bytes : Piece → List UInt8
  | .data b => b
  | .error b => b

/-- A piece that ends with an error. -/
def Piece.isError : Piece → Bool
  | .data _ => false
  | .error _ => true

/-- A file: its pieces, and then some bytes up to the end; or errors and nothing else. -/
structure File where
  pieces : List Piece
  finish : Option (List UInt8)
  deriving DecidableEq, Repr

/-- All the bytes that a file brings. -/
def File.content (self : File) : List UInt8 :=
  (self.pieces.map Piece.bytes).flatten ++ self.finish.getD []

/-- Some read of the file fails. -/
def File.Fails (self : File) : Prop :=
  self.pieces.any Piece.isError = true ∨ self.finish = none

instance (self : File) : Decidable self.Fails := inferInstanceAs (Decidable (_ ∨ _))

/-- A `FILE` with its indicators: `feof` and `ferror`. -/
structure Stream where
  file : File
  eof : Bool := false
  err : Bool := false
  deriving DecidableEq, Repr

/-- `fread` of at most `n` bytes. -/
def Stream.fread (self : Stream) (n : Nat) : List UInt8 × Stream :=
  match self.file.pieces with
  | .data b :: rest =>
      if b.length ≤ n then (b, { self with file := { self.file with pieces := rest } })
      else
        (b.take n, { self with file := { self.file with pieces := .data (b.drop n) :: rest } })
  | .error b :: rest =>
      if b.length < n then
        (b, { self with file := { self.file with pieces := rest }, err := true })
      else
        (b.take n, { self with file := { self.file with pieces := .error (b.drop n) :: rest } })
  | [] =>
      match self.file.finish with
      | none => ([], { self with err := true })
      | some b =>
          if b.length < n then
            (b, { self with file := { self.file with finish := some [] }, eof := true })
          else (b.take n, { self with file := { self.file with finish := some (b.drop n) } })

/-! ## The option -/

/-- The buffer, how much of it is filled, and the stream. -/
structure Reading where
  data : List UInt8
  dataLen : Nat
  stream : Stream
  deriving DecidableEq, Repr

/-- The buffer grows when there is little room left in it: it is doubled until it is big. -/
def Reading.grow (self : Reading) : Reading :=
  if self.data.length - self.dataLen < 1024 then
    let more := if self.data.length < 2 ^ 20 then self.data.length else 2 ^ 20
    { self with data := self.data ++ List.replicate more 0 }
  else self

/-- Where the loop is after some turns. -/
inductive ReadLoop where
  | running
  /-- bytes were written behind the buffer -/
  | overflow
  | done (r : Reading)
  deriving DecidableEq, Repr

/-- What was read goes behind what is there. -/
def Reading.fill (self : Reading) (got : List UInt8 × Stream) : Reading :=
  { data := overwrite self.data self.dataLen got.1
    dataLen := self.dataLen + got.1.length
    stream := got.2 }

/-- The loop of `grid_process_option`, with a bound on its turns. -/
def readLoop : Nat → Reading → ReadLoop
  | 0, _ => .running
  | fuel + 1, r =>
      let got := r.stream.fread (r.data.length - r.dataLen)
      if r.dataLen + got.1.length > r.data.length then .overflow
      else if (r.fill got).stream.eof then .done (r.fill got)
      else readLoop fuel (r.fill got).grow

/-- Before the first turn. -/
def Reading.start (file : File) : Reading :=
  { data := List.replicate 4096 0, dataLen := 0, stream := { file := file } }

/-- What the option comes to. -/
inductive ReadFile where
  | running
  | overflow
  /-- an assertion failed -/
  | aborted
  | exit (code : Int)
  | blob (data : List UInt8) (length : Int)
  deriving DecidableEq, Repr

/-- A `size_t` that is stored in an `int`. -/
def intOf (n : Nat) : Int := (BitVec.ofNat 32 n).toInt

/-- `GRID_OPT_READ_FILE`.  `zeroNull` tells whether `realloc` to no bytes frees the memory and
returns `NULL`. -/
def readFile (zeroNull : Bool) (fuel : Nat) (file : File) : ReadFile :=
  match readLoop fuel (Reading.start file) with
  | .running => .running
  | .overflow => .overflow
  | .done r =>
      let shrunk :=
        if r.dataLen ≠ r.data.length then
          if r.dataLen = 0 ∧ zeroNull = true then none else some (r.data.take r.dataLen)
        else some r.data
      match shrunk with
      | none => .aborted
      | some data => if r.stream.err then .exit 2 else .blob data (intOf r.dataLen)

/-- What the option is for: reading ends, the blob is what is in the file, a read that fails ends
in an error exit, and nothing is written behind the buffer. -/
structure ReadsContent (zeroNull : Bool) (file : File) : Prop where
  ends : ∃ fuel, readFile zeroNull fuel file ≠ .running
  exact : ¬file.Fails → ∀ fuel, readFile zeroNull fuel file ≠ .running →
    readFile zeroNull fuel file = .blob file.content file.content.length
  fails : file.Fails → ∀ fuel, readFile zeroNull fuel file ≠ .running →
    readFile zeroNull fuel file = .exit 2
  within : ∀ fuel, readFile zeroNull fuel file ≠ .overflow

/-! ## A call of `fread` -/

variable {s : Stream} {n : Nat}

/-- How much there is still to come. -/
def Stream.weight (s : Stream) : Nat := s.file.pieces.length + s.file.content.length

/-- What a call brings of a file that has an end. -/
structure Brings (s : Stream) (n : Nat) (got : List UInt8) (s' : Stream) : Prop where
  length : got.length ≤ n
  bytes : got ++ s'.file.content = s.file.content
  finish : s'.file.finish ≠ none
  err : (s'.err || s'.file.pieces.any Piece.isError) = (s.err || s.file.pieces.any Piece.isError)
  progress : s'.eof = true ∧ got.length < n ∧ s'.file = { pieces := [], finish := some [] } ∨
    s'.eof = s.eof ∧ s'.weight < s.weight

/-- The rest of a piece is read, or a part of it. -/
theorem brings_piece {p q : Piece} {rest : List Piece} {b : List UInt8} {eof err : Bool} :
    (p.bytes.length ≤ n → Brings ⟨⟨p :: rest, some b⟩, eof, err⟩ n p.bytes
      ⟨⟨rest, some b⟩, eof, p.isError || err⟩) ∧
    (n ≤ p.bytes.length → 0 < n → q.bytes = p.bytes.drop n → q.isError = p.isError →
      Brings ⟨⟨p :: rest, some b⟩, eof, err⟩ n (p.bytes.take n)
        ⟨⟨q :: rest, some b⟩, eof, err⟩) := by
  constructor
  · intro hfits
    refine ⟨hfits, by simp [File.content], by simp, by simp [Bool.or_comm, Bool.or_left_comm],
      Or.inr ⟨rfl, ?_⟩⟩
    simp only [Stream.weight, File.content, List.map_cons, List.flatten_cons,
      List.length_append, List.length_cons]
    omega
  · intro hlong hn hbytes herror
    refine ⟨List.length_take_le n _, ?_, by simp, by simp [herror], Or.inr ⟨rfl, ?_⟩⟩
    · simp [File.content, hbytes, ← List.append_assoc]
    · simp only [Stream.weight, File.content, List.map_cons, List.flatten_cons, hbytes,
        List.length_append, List.length_cons, List.length_drop]
      omega

theorem fread_brings (hfinish : s.file.finish ≠ none) (hn : 0 < n) :
    Brings s n (s.fread n).1 (s.fread n).2 := by
  obtain ⟨⟨pieces, finish⟩, eof, err⟩ := s
  obtain ⟨b, rfl⟩ := Option.ne_none_iff_exists'.mp hfinish
  cases pieces with
  | nil =>
      rw [Stream.fread]
      simp only
      by_cases hshort : b.length < n
      · rw [if_pos hshort]
        exact ⟨Nat.le_of_lt hshort, by simp [File.content], by simp, rfl,
          Or.inl ⟨rfl, hshort, rfl⟩⟩
      · rw [if_neg hshort]
        refine ⟨List.length_take_le n b, by simp [File.content], by simp, rfl, Or.inr ⟨rfl, ?_⟩⟩
        simp only [Stream.weight, File.content, List.map_nil, List.flatten_nil, List.nil_append,
          Option.getD_some, List.length_drop, List.length_nil]
        omega
  | cons p rest =>
      cases p with
      | data c =>
          rw [Stream.fread]
          simp only
          by_cases hfits : c.length ≤ n
          · rw [if_pos hfits]
            exact (brings_piece (p := .data c) (q := .data [])).1 hfits
          · rw [if_neg hfits]
            exact (brings_piece (p := .data c)).2 (Nat.le_of_not_le hfits) hn rfl rfl
      | error c =>
          rw [Stream.fread]
          simp only
          by_cases hfits : c.length < n
          · rw [if_pos hfits]
            exact (brings_piece (p := .error c) (q := .error [])).1 (Nat.le_of_lt hfits)
          · rw [if_neg hfits]
            exact (brings_piece (p := .error c)).2 (Nat.le_of_not_lt hfits) hn rfl rfl

/-- A file that has no end never reports it. -/
theorem fread_endless (hfinish : s.file.finish = none) (heof : s.eof = false) :
    (s.fread n).1.length ≤ n ∧ (s.fread n).2.file.finish = none ∧ (s.fread n).2.eof = false := by
  obtain ⟨⟨pieces, finish⟩, eof, err⟩ := s
  simp only at hfinish heof
  rw [hfinish, heof, Stream.fread]
  cases pieces with
  | nil => exact ⟨Nat.zero_le n, rfl, rfl⟩
  | cons p rest =>
      cases p with
      | data c =>
          simp only
          split
          · rename_i hfits
            exact ⟨hfits, rfl, rfl⟩
          · exact ⟨List.length_take_le n c, rfl, rfl⟩
      | error c =>
          simp only
          split
          · rename_i hfits
            exact ⟨Nat.le_of_lt hfits, rfl, rfl⟩
          · exact ⟨List.length_take_le n c, rfl, rfl⟩

/-! ## A turn of the loop -/

variable {r r' : Reading}

/-- Between two turns there is room in the buffer. -/
structure Ready (r : Reading) : Prop where
  room : r.dataLen + 1024 ≤ r.data.length
  size : 4096 ≤ r.data.length
  eof : r.stream.eof = false

/-- A buffer that has been filled within its size has room again once it has grown. -/
theorem ready_grow (hlen : r.dataLen ≤ r.data.length) (hsize : 4096 ≤ r.data.length)
    (heof : r.stream.eof = false) : Ready r.grow := by
  rw [Reading.grow]
  by_cases hroom : r.data.length - r.dataLen < 1024
  · rw [if_pos hroom]
    refine ⟨?_, ?_, heof⟩
    · simp only [List.length_append, List.length_replicate]
      split <;> omega
    · simp only [List.length_append]
      omega
  · rw [if_neg hroom]
    exact ⟨by omega, hsize, heof⟩

/-- Growing keeps what is in the buffer. -/
theorem grow_keeps (hlen : r.dataLen ≤ r.data.length) :
    r.grow.data.take r.grow.dataLen = r.data.take r.dataLen ∧ r.grow.dataLen = r.dataLen ∧
      r.grow.stream = r.stream := by
  rw [Reading.grow]
  by_cases hroom : r.data.length - r.dataLen < 1024
  · rw [if_pos hroom]
    exact ⟨List.take_append_of_le_length hlen, rfl, rfl⟩
  · rw [if_neg hroom]
    exact ⟨rfl, rfl, rfl⟩

/-- What the loop has read in the end. -/
structure ReadAll (r r' : Reading) : Prop where
  data : r'.data.take r'.dataLen = r.data.take r.dataLen ++ r.stream.file.content
  dataLen : r'.dataLen = r.dataLen + r.stream.file.content.length
  room : r'.dataLen < r'.data.length
  err : r'.stream.err = (r.stream.err || r.stream.file.pieces.any Piece.isError)

/-- The loop ends when the file does, and has read all of it then. -/
theorem readLoop_done (hready : Ready r) (hfinish : r.stream.file.finish ≠ none) (fuel : Nat)
    (hfuel : r.stream.weight < fuel) : ∃ r', readLoop fuel r = .done r' ∧ ReadAll r r' := by
  induction fuel generalizing r with
  | zero => exact absurd hfuel (Nat.not_lt_zero _)
  | succ fuel ih =>
      have hroom := hready.room
      have hbrings := fread_brings (n := r.data.length - r.dataLen) hfinish (by omega)
      rw [readLoop]
      generalize r.stream.fread (r.data.length - r.dataLen) = got at hbrings ⊢
      have hgot := hbrings.length
      have hwithin : r.dataLen + got.1.length ≤ r.data.length := by omega
      have hsize : (r.fill got).data.length = r.data.length := length_overwrite hwithin
      have htake : (r.fill got).data.take (r.fill got).dataLen =
          r.data.take r.dataLen ++ got.1 :=
        take_overwrite_end got.1 (by omega)
      rw [if_neg (Nat.not_lt.mpr hwithin)]
      rcases hbrings.progress with ⟨heof, hshort, hnothing⟩ | ⟨heof, hweight⟩
      · rw [if_pos (show (r.fill got).stream.eof = true from heof)]
        have hall : got.1 = r.stream.file.content := by
          have hbytes := hbrings.bytes
          rw [hnothing] at hbytes
          exact (List.append_nil _).symm.trans hbytes
        have herr := hbrings.err
        rw [hnothing, List.any_nil, Bool.or_false] at herr
        refine ⟨r.fill got, rfl, ?_, ?_, ?_, herr⟩
        · rw [htake, hall]
        · rw [← hall]
          rfl
        · rw [hsize]
          simp only [Reading.fill]
          omega
      · have hmore : (r.fill got).stream.eof = false := heof.trans hready.eof
        have hlen : (r.fill got).dataLen ≤ (r.fill got).data.length := by
          rw [hsize]
          exact hwithin
        obtain ⟨hdata, hdataLen, hstream⟩ := grow_keeps hlen
        rw [if_neg (by rw [hmore]; exact Bool.false_ne_true)]
        have hnext : Ready (r.fill got).grow :=
          ready_grow hlen (by rw [hsize]; exact hready.size) hmore
        obtain ⟨r', hloop, hread⟩ := ih hnext (by rw [hstream]; exact hbrings.finish)
          (by rw [hstream]; exact Nat.lt_of_lt_of_le hweight (Nat.le_of_lt_succ hfuel))
        refine ⟨r', hloop, ?_, ?_, hread.room, ?_⟩
        · rw [hread.data, hdata, htake, hstream, List.append_assoc]
          exact congrArg _ hbrings.bytes
        · have hcount := congrArg List.length hbrings.bytes
          rw [List.length_append] at hcount
          rw [hread.dataLen, hdataLen, hstream]
          simp only [Reading.fill]
          omega
        · rw [hread.err, hstream]
          exact hbrings.err

/-- A file that has no end is read for ever. -/
theorem readLoop_endless (hready : Ready r) (hfinish : r.stream.file.finish = none) (fuel : Nat) :
    readLoop fuel r = .running := by
  induction fuel generalizing r with
  | zero => rfl
  | succ fuel ih =>
      have hroom := hready.room
      obtain ⟨hgot, hendless, heof⟩ :=
        fread_endless (n := r.data.length - r.dataLen) hfinish hready.eof
      rw [readLoop]
      generalize r.stream.fread (r.data.length - r.dataLen) = got at hgot hendless heof ⊢
      have hwithin : r.dataLen + got.1.length ≤ r.data.length := by omega
      have hsize : (r.fill got).data.length = r.data.length := length_overwrite hwithin
      have hlen : (r.fill got).dataLen ≤ (r.fill got).data.length := by
        rw [hsize]
        exact hwithin
      have hmore : (r.fill got).stream.eof = false := heof
      rw [if_neg (Nat.not_lt.mpr hwithin), if_neg (by rw [hmore]; exact Bool.false_ne_true)]
      refine ih (ready_grow hlen (by rw [hsize]; exact hready.size) hmore) ?_
      rw [(grow_keeps hlen).2.2]
      exact hendless

/-- More turns change nothing once the loop has ended. -/
theorem readLoop_mono {fuel more : Nat} (hle : fuel ≤ more) (h : readLoop fuel r ≠ .running) :
    readLoop more r = readLoop fuel r := by
  induction fuel generalizing r more with
  | zero => exact absurd rfl h
  | succ fuel ih =>
      obtain ⟨more, rfl⟩ : ∃ k, more = k + 1 := ⟨more - 1, by omega⟩
      rw [readLoop] at h ⊢
      conv_rhs => rw [readLoop]
      split
      · rfl
      · split
        · rfl
        · rename_i hwithin hmore
          rw [if_neg hwithin, if_neg hmore] at h
          exact ih (Nat.le_of_succ_le_succ hle) h

/-! ## What the option comes to -/

variable {file : File}

theorem ready_start (file : File) : Ready (Reading.start file) := by
  refine ⟨?_, ?_, rfl⟩
  · simp only [Reading.start, List.length_replicate]
    decide
  · simp only [Reading.start, List.length_replicate]
    decide

/-- With an end of the file there is one result, whatever the bound on the turns. -/
theorem readFile_eq (zeroNull : Bool) (hfinish : file.finish ≠ none) (fuel : Nat)
    (h : readFile zeroNull fuel file ≠ .running) :
    readFile zeroNull fuel file =
      if file.content = [] ∧ zeroNull = true then .aborted
      else if file.pieces.any Piece.isError then .exit 2
      else .blob file.content (intOf file.content.length) := by
  have hloop : readLoop fuel (Reading.start file) ≠ .running := by
    intro hrunning
    apply h
    rw [readFile, hrunning]
  obtain ⟨r', hdone, hread⟩ := readLoop_done (ready_start file) hfinish
    (max fuel ((Reading.start file).stream.weight + 1)) (by omega)
  rw [readLoop_mono (Nat.le_max_left _ _) hloop] at hdone
  have hdata : r'.data.take r'.dataLen = file.content := hread.data
  have hlength : r'.dataLen = file.content.length := by
    rw [hread.dataLen]
    exact Nat.zero_add _
  have herr : r'.stream.err = file.pieces.any Piece.isError := hread.err
  have hzero : r'.dataLen = 0 ↔ file.content = [] := by
    rw [hlength, List.length_eq_zero_iff]
  have hfits : r'.dataLen ≠ r'.data.length := Nat.ne_of_lt hread.room
  rw [readFile, hdone]
  simp only
  rw [if_pos hfits, hdata, herr, hlength]
  by_cases hempty : file.content = [] ∧ zeroNull = true
  · rw [if_pos hempty, if_pos ⟨List.length_eq_zero_iff.mpr hempty.1, hempty.2⟩]
  · rw [if_neg hempty, if_neg (by rw [List.length_eq_zero_iff]; exact hempty)]

/-- A file that has an end is read. -/
theorem readFile_ends (zeroNull : Bool) (hfinish : file.finish ≠ none) :
    ∃ fuel, readFile zeroNull fuel file ≠ .running := by
  obtain ⟨r', hdone, -⟩ := readLoop_done (ready_start file) hfinish
    ((Reading.start file).stream.weight + 1) (Nat.lt_succ_self _)
  refine ⟨(Reading.start file).stream.weight + 1, ?_⟩
  rw [readFile, hdone]
  simp only
  split
  · simp
  · split <;> simp

theorem intOf_eq_iff (n : Nat) : intOf n = n ↔ n < 2 ^ 31 := by
  rw [intOf, BitVec.toInt_eq_toNat_cond, BitVec.toNat_ofNat]
  split <;> omega

/-- The option does what it is for if the file has an end, if it is not empty (where `realloc` to
no bytes returns `NULL`), and if the number of its bytes is an `int`. -/
theorem reads_iff (zeroNull : Bool) (file : File) :
    ReadsContent zeroNull file ↔
      file.finish ≠ none ∧ (file.content ≠ [] ∨ zeroNull = false) ∧
        (¬file.Fails → file.content.length < 2 ^ 31) := by
  constructor
  · intro h
    obtain ⟨fuel, hends⟩ := h.ends
    have hfinish : file.finish ≠ none := by
      intro hnone
      apply hends
      rw [readFile, readLoop_endless (ready_start file) hnone]
    have heq := readFile_eq zeroNull hfinish fuel hends
    have hnotempty : ¬(file.content = [] ∧ zeroNull = true) := by
      intro hempty
      rw [if_pos hempty] at heq
      by_cases hfails : file.Fails
      · rw [h.fails hfails fuel hends] at heq
        exact absurd heq (by simp)
      · rw [h.exact hfails fuel hends] at heq
        exact absurd heq (by simp)
    refine ⟨hfinish, ?_, ?_⟩
    · cases hzero : zeroNull with
      | false => exact Or.inr rfl
      | true => exact Or.inl fun hempty => hnotempty ⟨hempty, hzero⟩
    · intro hfails
      have hclean : ¬file.pieces.any Piece.isError = true := fun herr => hfails (Or.inl herr)
      rw [if_neg hnotempty, if_neg hclean, h.exact hfails fuel hends] at heq
      injection heq with _ hlength
      exact (intOf_eq_iff _).mp hlength.symm
  · rintro ⟨hfinish, hempty, hlength⟩
    have hnotempty : ¬(file.content = [] ∧ zeroNull = true) := by
      rintro ⟨hcontent, hzero⟩
      rcases hempty with hcontent' | hzero'
      · exact hcontent' hcontent
      · rw [hzero] at hzero'
        exact absurd hzero' (by decide)
    have hresult := fun fuel h => @readFile_eq file zeroNull hfinish fuel h
    simp only [if_neg hnotempty] at hresult
    refine ⟨readFile_ends zeroNull hfinish, ?_, ?_, ?_⟩
    · intro hfails fuel hends
      have hclean : ¬file.pieces.any Piece.isError = true := fun herr => hfails (Or.inl herr)
      rw [hresult fuel hends, if_neg hclean, (intOf_eq_iff _).mpr (hlength hfails)]
    · intro hfails fuel hends
      have herr : file.pieces.any Piece.isError = true := hfails.resolve_right hfinish
      rw [hresult fuel hends, if_pos herr]
    · intro fuel hover
      have hends : readFile zeroNull fuel file ≠ .running := by
        rw [hover]
        simp
      rw [hresult fuel hends] at hover
      split at hover <;> exact absurd hover (by simp)

/-- A directory is opened, and then every read of it fails. -/
theorem not_reads : ¬ReadsContent true { pieces := [], finish := none } := by
  rintro ⟨⟨fuel, hends⟩, -, -, -⟩
  apply hends
  rw [readFile, readLoop_endless (ready_start _) rfl]

end GridMq.Tools
