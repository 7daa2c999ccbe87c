import Mathlib.Data.List.TakeWhile
import Mathlib.Logic.Function.Basic

set_option autoImplicit false

/-!
# Long options (`src/tools/options.c`)

An option may be given by a prefix of its name.  One scan of the table finds the option: it
ends at a name that is the argument's, and keeps the last of the longest partial matches.

Strings are without the zero at their ends.
-/

namespace GridMq.Tools

/-! ## The parser -/

/-- `enum grid_option_type`. -/
inductive OptionType where
  | help
  | int
  | increment
  | decrement
  | enum
  | setEnum
  | string
  | blob
  | float
  | listAppend
  | listAppendFmt
  | readFile
  deriving DecidableEq, Repr

/-- `struct grid_option`, with what the parsing of a long option reads. -/
structure GridOption where
  longname : List UInt8
  type : OptionType
  deriving DecidableEq, Repr

/-- `grid_has_arg`. -/
def GridOption.hasArg (opt : GridOption) : Bool :=
  match opt.type with
  | .increment | .decrement | .setEnum | .help => false
  | .enum | .string | .blob | .float | .int | .listAppend | .listAppendFmt | .readFile => true

/-- `struct grid_parse_context`.  The options end at the one without a name. -/
structure OptionContext where
  options : List GridOption
  argsLeft : List (List UInt8) := []
  data : List UInt8
  lastOptionUsage : Nat → Option (List UInt8) := fun _ => none

/-- What is printed before the program exits. -/
inductive OptionError where
  /-- `grid_option_error` -/
  | option (message : String) (index : Nat)
  /-- `grid_error_ambiguous_option`, with the names that it lists -/
  | ambiguous (names : List (List UInt8))
  /-- `grid_error_unknown_long_option` -/
  | unknown
  deriving DecidableEq, Repr

/-- The character `=`. -/
def equals : UInt8 := 0x3d

/-- How the comparison of a name with the argument ends. -/
inductive Comparison where
  | differs
  /-- the argument is over at `a - opt->longname`, and perhaps the name is, too -/
  | ends (curPrefix : Nat) (atEnd : Bool)
  deriving DecidableEq, Repr

/-- The loop over `a` and `b`. -/
def compareName : Nat → List UInt8 → List UInt8 → Comparison
  | cur, a, [] => .ends cur a.isEmpty
  | cur, a, c :: b =>
      if c = equals then .ends cur a.isEmpty
      else
        match a with
        | [] => .differs
        | d :: a => if c = d then compareName (cur + 1) a b else .differs
  termination_by structural _ _ b => b

/-- The best match so far.  An `int` holds the length of a name. -/
structure Scan where
  longestPrefix : Nat := 0
  bestMatch : Option Nat := none
  deriving DecidableEq, Repr

/-- The loop over the options. -/
def scanOptions (arg : List UInt8) : Nat → List GridOption → Scan → Scan
  | _, [], scan => scan
  | i, opt :: options, scan =>
      match compareName 0 opt.longname arg with
      | .ends curPrefix true => { longestPrefix := curPrefix, bestMatch := some i }
      | .ends curPrefix false =>
          if curPrefix = scan.longestPrefix then
            scanOptions arg (i + 1) options { scan with bestMatch := none }
          else if curPrefix > scan.longestPrefix then
            scanOptions arg (i + 1) options { longestPrefix := curPrefix, bestMatch := some i }
          else scanOptions arg (i + 1) options scan
      | .differs => scanOptions arg (i + 1) options scan

/-- The names that `grid_error_ambiguous_option` lists. -/
def ambiguousNames (options : List GridOption) (arg : List UInt8) : List (List UInt8) :=
  (options.map (·.longname)).filter fun name => decide (compareName 0 name arg ≠ .differs)

/-- `grid_get_arg`. -/
def OptionContext.getArg (self : OptionContext) : Option OptionContext :=
  match self.argsLeft with
  | [] => none
  | arg :: rest => some { self with argsLeft := rest, data := arg }

/-- `grid_parse_long_option`: the option and the argument that `grid_process_option` gets. -/
def OptionContext.parseLongOption (self : OptionContext) :
    Except OptionError (OptionContext × Nat × Option (List UInt8)) :=
  let arg := self.data.drop 2
  let scan := scanOptions arg 0 self.options {}
  match scan.bestMatch with
  | some best =>
      let hasArg := (self.options[best]?.map GridOption.hasArg).getD false
      let self := { self with
        lastOptionUsage := Function.update self.lastOptionUsage best (some self.data) }
      if arg[scan.longestPrefix]? = some equals then
        if hasArg then .ok (self, best, some (arg.drop (scan.longestPrefix + 1)))
        else .error (.option "does not accept argument" best)
      else if hasArg then
        match self.getArg with
        | some self => .ok (self, best, some self.data)
        | none => .error (.option "requires an argument" best)
      else .ok (self, best, none)
  | none =>
      if scan.longestPrefix > 0 then .error (.ambiguous (ambiguousNames self.options arg))
      else .error .unknown

/-! ## The choice of an option -/

/-- What becomes of an argument. -/
inductive Choice where
  | selected (index : Nat)
  | ambiguous
  | unknown
  deriving DecidableEq, Repr

/-- The choice that was made, whatever the argument's value has led to then. -/
def chosen : Except OptionError (OptionContext × Nat × Option (List UInt8)) → Choice
  | .ok (_, index, _) => .selected index
  | .error (.option _ index) => .selected index
  | .error (.ambiguous _) => .ambiguous
  | .error .unknown => .unknown

/-- The names, from a number on, of which another one is a proper prefix. -/
def candidates (name : List UInt8) (k : Nat) (names : List (List UInt8)) : List Nat :=
  ((names.zipIdx k).filter fun p => decide (name <+: p.1 ∧ p.1 ≠ name)).map Prod.snd

/-- The choice that a name asks for: an option of the name, or else the only one that has it as
a proper prefix. -/
def resolve (names : List (List UInt8)) (name : List UInt8) : Choice :=
  match names.findIdx? (· == name), candidates name 0 names with
  | some index, _ => .selected index
  | none, [] => .unknown
  | none, [index] => .selected index
  | none, _ :: _ :: _ => .ambiguous

/-- An argument that is a long option with a name. -/
structure LongArgument where
  name : List UInt8
  value : Option (List UInt8) := none
  nonempty : name ≠ []
  plain : equals ∉ name

/-- The value as it stands in the argument. -/
def LongArgument.rest (self : LongArgument) : List UInt8 :=
  match self.value with
  | none => []
  | some value => equals :: value

/-- The argument itself. -/
def LongArgument.text (self : LongArgument) : List UInt8 :=
  0x2d :: 0x2d :: (self.name ++ self.rest)

/-- What begins with two dashes, and goes on with a character of a name, is a long option. -/
theorem exists_longArgument {c : UInt8} (hc : c ≠ equals) (arg : List UInt8) :
    ∃ a : LongArgument, a.text = 0x2d :: 0x2d :: c :: arg := by
  have hsplit := List.takeWhile_append_dropWhile (p := fun b => b != equals) (l := arg)
  have hplain : equals ∉ c :: arg.takeWhile (fun b => b != equals) := by
    intro hmem
    rcases List.mem_cons.mp hmem with heq | htake
    · exact hc heq.symm
    · have hne := List.mem_takeWhile_imp htake
      simp at hne
  cases hrest : arg.dropWhile (fun b => b != equals) with
  | nil =>
    rw [hrest, List.append_nil] at hsplit
    refine ⟨{ name := c :: arg.takeWhile (fun b => b != equals), nonempty := List.cons_ne_nil _ _,
              plain := hplain }, ?_⟩
    simp only [LongArgument.text, LongArgument.rest, List.append_nil, hsplit]
  | cons d value =>
    have hd : d = equals := by
      have hhead := List.head?_dropWhile_not (fun b => b != equals) arg
      rw [hrest] at hhead
      simpa using hhead
    rw [hrest, hd] at hsplit
    refine ⟨{ name := c :: arg.takeWhile (fun b => b != equals), value := some value,
              nonempty := List.cons_ne_nil _ _, plain := hplain }, ?_⟩
    simp only [LongArgument.text, LongArgument.rest, List.cons_append, hsplit]

/-! ## The comparison of names -/

/-- The comparison tells a name, a longer one and another one apart. -/
theorem LongArgument.compareName_eq (arg : LongArgument) (longname : List UInt8) :
    compareName 0 longname (arg.name ++ arg.rest) =
      if longname = arg.name then .ends arg.name.length true
      else if arg.name <+: longname then .ends arg.name.length false
      else .differs := by
  have hend : ∀ cur a, compareName cur a arg.rest = .ends cur a.isEmpty := by
    intro cur a
    unfold LongArgument.rest
    cases arg.value with
    | none => rfl
    | some value => exact if_pos rfl
  have hloop : ∀ (name : List UInt8), equals ∉ name → ∀ cur a,
      compareName cur a (name ++ arg.rest) =
        if a = name then .ends (cur + name.length) true
        else if name <+: a then .ends (cur + name.length) false
        else .differs := by
    intro name
    induction name with
    | nil =>
      intro _ cur a
      rw [List.nil_append, hend]
      cases a with
      | nil => rfl
      | cons d a => rfl
    | cons c name ih =>
      intro hplain cur a
      rw [List.mem_cons, not_or] at hplain
      rw [List.cons_append]
      cases a with
      | nil =>
        rw [compareName, if_neg (fun heq => hplain.1 heq.symm)]
        rfl
      | cons d a =>
        rw [compareName, if_neg (fun heq => hplain.1 heq.symm)]
        by_cases hcd : c = d
        · subst hcd
          rw [if_pos rfl, ih hplain.2, List.length_cons]
          simp only [List.cons.injEq, true_and, List.cons_prefix_cons, Nat.add_assoc,
            Nat.add_comm 1]
        · rw [if_neg hcd, if_neg (fun heq => hcd (List.cons.inj heq).1.symm),
            if_neg (fun hpre => hcd (List.cons_prefix_cons.mp hpre).1)]
  have hall := hloop arg.name arg.plain 0 longname
  rwa [Nat.zero_add] at hall

/-- The names that are listed are those that begin with the argument's. -/
theorem LongArgument.ambiguousNames_eq (arg : LongArgument) (options : List GridOption) :
    ambiguousNames options (arg.name ++ arg.rest) =
      (options.map (·.longname)).filter fun name => decide (arg.name <+: name) := by
  unfold ambiguousNames
  refine List.filter_congr fun name _ => decide_eq_decide.mpr ?_
  rw [arg.compareName_eq]
  by_cases heq : name = arg.name
  · rw [if_pos heq, heq]
    exact iff_of_true (fun h => Comparison.noConfusion h) (List.prefix_refl _)
  · rw [if_neg heq]
    by_cases hpre : arg.name <+: name
    · rw [if_pos hpre]
      exact iff_of_true (fun h => Comparison.noConfusion h) hpre
    · rw [if_neg hpre]
      exact iff_of_false (fun h => h rfl) hpre

/-! ## The scan -/

/-- The scan as it is after some partial matches of one length. -/
def Scan.found (len : Nat) : List Nat → Scan
  | [] => {}
  | [index] => { longestPrefix := len, bestMatch := some index }
  | _ :: _ :: _ => { longestPrefix := len, bestMatch := none }

/-- One more partial match of the length. -/
theorem Scan.found_concat {len : Nat} (hlen : 0 < len) (is : List Nat) (i : Nat) :
    (if len = (Scan.found len is).longestPrefix then
        { (Scan.found len is) with bestMatch := none }
      else if len > (Scan.found len is).longestPrefix then
        { longestPrefix := len, bestMatch := some i }
      else Scan.found len is) = Scan.found len (is ++ [i]) := by
  match is with
  | [] =>
    have hne : len ≠ 0 := by omega
    exact (if_neg hne).trans (if_pos hlen)
  | [_] => exact if_pos rfl
  | _ :: _ :: _ => exact if_pos rfl

theorem candidates_cons (name longname : List UInt8) (k : Nat) (names : List (List UInt8)) :
    candidates name k (longname :: names) =
      (if name <+: longname ∧ longname ≠ name then [k] else []) ++
        candidates name (k + 1) names := by
  unfold candidates
  rw [List.zipIdx_cons, List.filter_cons]
  by_cases h : name <+: longname ∧ longname ≠ name
  · simp [h]
  · simp [h]

/-- Without an option of the name the scan keeps count of those that begin with it. -/
theorem LongArgument.scan_candidates (arg : LongArgument) (options : List GridOption) :
    ∀ (i : Nat) (is : List Nat), (∀ opt ∈ options, opt.longname ≠ arg.name) →
      scanOptions (arg.name ++ arg.rest) i options (Scan.found arg.name.length is) =
        Scan.found arg.name.length
          (is ++ candidates arg.name i (options.map (·.longname))) := by
  have hlen : 0 < arg.name.length := List.length_pos_iff.mpr arg.nonempty
  induction options with
  | nil =>
    intro i is _
    rw [List.map_nil, candidates, List.zipIdx_nil, List.filter_nil, List.map_nil, List.append_nil]
    rfl
  | cons opt options ih =>
    intro i is hnone
    have hne := hnone opt List.mem_cons_self
    have hrest := fun o ho => hnone o (List.mem_cons_of_mem opt ho)
    rw [List.map_cons, candidates_cons, scanOptions, arg.compareName_eq, if_neg hne]
    by_cases hpre : arg.name <+: opt.longname
    · rw [if_pos hpre, if_pos ⟨hpre, hne⟩, ← List.append_assoc, ← ih (i + 1) _ hrest,
        ← Scan.found_concat hlen is i]
      simp only
      split
      · rfl
      · split <;> rfl
    · rw [if_neg hpre, if_neg (fun h => hpre h.1), List.nil_append]
      exact ih (i + 1) is hrest

/-- The scan ends at the first option of the name, whatever it has come by. -/
theorem LongArgument.scan_exact (arg : LongArgument) (options : List GridOption) :
    ∀ (i : Nat) (scan : Scan) (index : Nat),
      (options.map (·.longname)).findIdx? (· == arg.name) = some index →
      scanOptions (arg.name ++ arg.rest) i options scan =
        { longestPrefix := arg.name.length, bestMatch := some (i + index) } := by
  induction options with
  | nil =>
    intro i scan index hfind
    exact absurd hfind (by simp)
  | cons opt options ih =>
    intro i scan index hfind
    rw [List.map_cons, List.findIdx?_cons] at hfind
    rw [scanOptions, arg.compareName_eq]
    by_cases heq : opt.longname = arg.name
    · rw [if_pos (beq_iff_eq.mpr heq)] at hfind
      rw [if_pos heq, ← Option.some.inj hfind]
      rfl
    · rw [if_neg (fun hbeq => heq (beq_iff_eq.mp hbeq))] at hfind
      obtain ⟨j, hj, rfl⟩ := Option.map_eq_some_iff.mp hfind
      have hrest := fun scan' => ih (i + 1) scan' j hj
      rw [if_neg heq, show i + (j + 1) = i + 1 + j by omega]
      by_cases hpre : arg.name <+: opt.longname
      · rw [if_pos hpre]
        simp only
        split
        · exact hrest _
        · split
          · exact hrest _
          · exact hrest _
      · rw [if_neg hpre]
        exact hrest scan

/-- What the scan comes to. -/
def Scan.choice (self : Scan) : Choice :=
  match self.bestMatch with
  | some index => .selected index
  | none => if self.longestPrefix > 0 then .ambiguous else .unknown

/-- What is done with the option's value does not change the choice. -/
theorem OptionContext.chosen_eq (ctx : OptionContext) :
    chosen ctx.parseLongOption = (scanOptions (ctx.data.drop 2) 0 ctx.options {}).choice := by
  unfold OptionContext.parseLongOption Scan.choice
  simp only
  cases (scanOptions (ctx.data.drop 2) 0 ctx.options {}).bestMatch with
  | none =>
    simp only
    split
    · rfl
    · rfl
  | some best =>
    simp only
    split
    · split
      · rfl
      · rfl
    · split
      · cases OptionContext.getArg _ with
        | none => rfl
        | some ctx' => rfl
      · rfl

/-- The option of the name is selected, or the only one that begins with it; the argument is
ambiguous where several do, and unknown where none does.  The value does not matter. -/
theorem parseLongOption_resolve (ctx : OptionContext) (arg : LongArgument) :
    chosen { ctx with data := arg.text }.parseLongOption =
      resolve (ctx.options.map (·.longname)) arg.name := by
  have hdrop : arg.text.drop 2 = arg.name ++ arg.rest := rfl
  rw [OptionContext.chosen_eq]
  simp only [hdrop]
  unfold resolve
  cases hfind : (ctx.options.map (·.longname)).findIdx? (· == arg.name) with
  | some index =>
    rw [arg.scan_exact ctx.options 0 {} index hfind, Nat.zero_add]
    rfl
  | none =>
    have hnone : ∀ opt ∈ ctx.options, opt.longname ≠ arg.name := by
      intro opt hopt heq
      have hall := List.findIdx?_eq_none_iff.mp hfind opt.longname (List.mem_map_of_mem hopt)
      simp [heq] at hall
    have hscan := arg.scan_candidates ctx.options 0 [] hnone
    have hlen : 0 < arg.name.length := List.length_pos_iff.mpr arg.nonempty
    rw [List.nil_append, Scan.found] at hscan
    rw [hscan]
    generalize candidates arg.name 0 (ctx.options.map (·.longname)) = found
    match found with
    | [] => rfl
    | [index] => rfl
    | _ :: _ :: _ => exact if_pos hlen

/-- The options `--sub` and `--subscribe`. -/
def subOptions : List GridOption :=
  [⟨[115, 117, 98], .setEnum⟩, ⟨[115, 117, 98, 115, 99, 114, 105, 98, 101], .listAppend⟩]

/-- `--sub`, `--subs=a`, `--su` and `--x=a`. -/
theorem parseLongOption_resolve_sub :
    let choice := fun data =>
      chosen ({ options := subOptions, data := data } : OptionContext).parseLongOption
    choice [45, 45, 115, 117, 98] = .selected 0 ∧
      choice [45, 45, 115, 117, 98, 115, 61, 97] = .selected 1 ∧
      choice [45, 45, 115, 117] = .ambiguous ∧ choice [45, 45, 120, 61, 97] = .unknown := by
  have hresolve := parseLongOption_resolve { options := subOptions, data := [] }
  exact ⟨(hresolve ⟨[115, 117, 98], none, by decide, by decide⟩).trans (by decide),
    (hresolve ⟨[115, 117, 98, 115], some [97], by decide, by decide⟩).trans (by decide),
    (hresolve ⟨[115, 117], none, by decide, by decide⟩).trans (by decide),
    (hresolve ⟨[120], some [97], by decide, by decide⟩).trans (by decide)⟩

end GridMq.Tools
