import GridMq.Library.Heap

set_option autoImplicit false

/-!
# Options that append to a list (`src/tools/options.c`)

A list of strings has an array with its items and, where some of them were formatted and have
to be released, an array with those.  Both grow by one element with each string.

An allocation that fails ends the program, as does a conflict between options; neither is here.
A result that is missing stands for memory that is used and not allocated, and for an assertion
that fails.
-/

namespace GridMq.Tools

open GridMq.Library

/-- A string: an argument of the command line, or memory that was allocated for it. -/
inductive Str where
  | argument (text : List UInt8)
  | allocated (addr : Nat)
  deriving DecidableEq, Repr

/-- Arrays of strings.  What is not written yet is `none`. -/
abbrev Arrays := Heap (List (Option Str))

/-- `struct grid_string_list`. -/
structure StringList where
  items : Option Nat := none
  num : Nat := 0
  toFree : Option Nat := none
  toFreeNum : Nat := 0
  deriving DecidableEq, Repr

/-- `struct grid_option` of the types `GRID_OPT_LIST_APPEND` and `GRID_OPT_LIST_APPEND_FMT`.
The latter has a format: what stands before `%s`, and after it. -/
structure ListOption where
  offset : Nat
  pointer : Option (List UInt8 × List UInt8) := none
  deriving DecidableEq, Repr

/-- The memory, and the lists of the target by their offsets. -/
structure ParseContext where
  texts : Heap (List UInt8)
  arrays : Arrays
  target : Nat → StringList := fun _ => {}

/-- What an array is after `realloc` to a number of elements. -/
def resized (num : Nat) (items : List (Option Str)) : List (Option Str) :=
  items.take num ++ List.replicate (num - items.length) none

/-- The memory for one element more: `array` is tested, and `source` is what `realloc` gets. -/
def enlarge (arrays : Arrays) (array source : Option Nat) (num : Nat) :
    Option ((Arrays × Nat) × Nat) :=
  match array, source with
  | none, _ => some (arrays.malloc [none], 1)
  | some _, none => some (arrays.malloc (List.replicate (num + 1) none), num + 1)
  | some _, some addr => (arrays.realloc addr (resized (num + 1))).map (·, num + 1)

/-- The last element of an array is written. -/
def storeLast (arrays : Arrays) (addr num : Nat) (str : Str) : Option Arrays := do
  let items ← arrays.blocks addr
  if num - 1 < items.length then arrays.write addr (items.set (num - 1) (some str)) else none

/-- An array with one string more, its address and its size. -/
def grow (arrays : Arrays) (array source : Option Nat) (num : Nat) (str : Str) :
    Option (Arrays × Nat × Nat) := do
  let ((arrays, addr), num) ← enlarge arrays array source num
  let arrays ← storeLast arrays addr num str
  return (arrays, addr, num)

/-- `grid_append_string`. -/
def ParseContext.appendString (self : ParseContext) (opt : ListOption) (str : Str) :
    Option ParseContext := do
  let lst := self.target opt.offset
  let (arrays, items, num) ← grow self.arrays lst.items lst.items lst.num str
  return { self with
    arrays := arrays
    target := Function.update self.target opt.offset
      { lst with items := some items, num := num } }

/-- `grid_append_string_to_free`, which has `realloc` work on the items. -/
def ParseContext.appendStringToFree (self : ParseContext) (opt : ListOption) (str : Str) :
    Option ParseContext := do
  let lst := self.target opt.offset
  let (arrays, toFree, num) ← grow self.arrays lst.toFree lst.items lst.toFreeNum str
  return { self with
    arrays := arrays
    target := Function.update self.target opt.offset
      { lst with toFree := some toFree, toFreeNum := num } }

/-- What an option makes of its argument. -/
def ListOption.formatted (self : ListOption) (argument : List UInt8) : List UInt8 :=
  match self.pointer with
  | none => argument
  | some (before, after) => before ++ argument ++ after

/-- An option of the command line with its argument. -/
abbrev Occurrence (options : List ListOption) := Fin options.length × List UInt8

/-- The option that occurs. -/
def Occurrence.opt {options : List ListOption} (self : Occurrence options) : ListOption :=
  options.get self.1

/-- `grid_process_option` for the two types. -/
def ParseContext.processOption (options : List ListOption) (self : ParseContext)
    (occ : Occurrence options) : Option ParseContext :=
  match occ.opt.pointer with
  | none => self.appendString occ.opt (.argument occ.2)
  | some (before, after) => do
      let dataBuf := occ.2.length + (before.length + 2 + after.length)
      let data := occ.opt.formatted occ.2
      -- `assert (data_len < data_buf)`
      if data.length < dataBuf then
        let self' := { self with texts := (self.texts.malloc data).1 }
        let self' ← self'.appendString occ.opt (.allocated self.texts.next)
        self'.appendStringToFree occ.opt (.allocated self.texts.next)
      else none

/-- `grid_parse_options`: one option after the other. -/
def ParseContext.parseOptions (options : List ListOption) (self : ParseContext)
    (occs : List (Occurrence options)) : Option ParseContext :=
  occs.foldlM (ParseContext.processOption options) self

/-- `free (lst->to_free[j])`. -/
def freeString (arrays : Arrays) (toFree : Nat) (texts : Heap (List UInt8)) (j : Nat) :
    Option (Heap (List UInt8)) := do
  let items ← arrays.blocks toFree
  match items[j]? with
  | some (some (.allocated addr)) => texts.free addr
  | _ => none

/-- An array that is not `NULL` is released. -/
def freeArray (arrays : Arrays) : Option Nat → Option Arrays
  | none => some arrays
  | some addr => arrays.free addr

/-- What `grid_free_options` does for an option. -/
def ParseContext.freeList (self : ParseContext) (opt : ListOption) : Option ParseContext := do
  let lst := self.target opt.offset
  let arrays ← freeArray self.arrays lst.items
  match lst.toFree with
  | none =>
      return { self with
        arrays := arrays
        target := Function.update self.target opt.offset { lst with items := none } }
  | some toFree =>
      let texts ← (List.range lst.toFreeNum).foldlM (freeString arrays toFree) self.texts
      let arrays ← arrays.free toFree
      return {
        texts := texts
        arrays := arrays
        target := Function.update self.target opt.offset
          { lst with items := none, toFree := none } }

/-- `grid_free_options`. -/
def ParseContext.freeOptions (options : List ListOption) (self : ParseContext) :
    Option ParseContext :=
  options.foldlM ParseContext.freeList self

/-! ## What is asked of the lists -/

/-- The bytes of a string. -/
def ParseContext.text (self : ParseContext) : Option Str → Option (List UInt8)
  | none => none
  | some (.argument text) => some text
  | some (.allocated addr) => self.texts.blocks addr

/-- The strings of a list, as they can be read. -/
def ParseContext.listed (self : ParseContext) (offset : Nat) : List (Option (List UInt8)) :=
  match (self.target offset).items with
  | none => []
  | some items => ((self.arrays.blocks items).getD []).map self.text

variable {options : List ListOption}

/-- The arguments for a list, each as its option says. -/
def argumentsFor (occs : List (Occurrence options)) (offset : Nat) : List (List UInt8) :=
  (occs.filter (fun occ => occ.opt.offset = offset)).map (fun occ => occ.opt.formatted occ.2)

/-- How many of the arguments for a list are formatted. -/
def formattedFor (occs : List (Occurrence options)) (offset : Nat) : Nat :=
  occs.countP (fun occ => decide (occ.opt.offset = offset) && occ.opt.pointer.isSome)

/-- The options are parsed, each list has its arguments in their order and their number, and
`grid_free_options` then releases what was allocated and nothing else. -/
def AppendsRight (texts : Heap (List UInt8)) (arrays : Arrays)
    (occs : List (Occurrence options)) : Prop :=
  ∃ ctx, ParseContext.parseOptions options { texts := texts, arrays := arrays } occs = some ctx ∧
    (∀ offset, (ctx.target offset).num = (argumentsFor occs offset).length ∧
      ctx.listed offset = (argumentsFor occs offset).map some) ∧
    ∃ ctx', ctx.freeOptions options = some ctx' ∧
      ctx'.texts.blocks = texts.blocks ∧ ctx'.arrays.blocks = arrays.blocks

end GridMq.Tools
