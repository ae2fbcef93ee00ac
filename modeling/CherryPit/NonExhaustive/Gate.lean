import CherryPit.Data.TryEach
import CherryPit.NonExhaustive.Cfg
import Mathlib.Data.String.Basic

/-!
# The gate for closed error enums

Port of `non-exhaustive-check/src/main.rs`: which enums of a parsed file are collected, which of
them are violations, and what the run over the library crates prints. An enum that is compiled
without tests, under some values of the other options, is never skipped (`shipped_is_flagged`), and
a run that finds nothing to report has seen no such enum that is an open error type
(`main_reports`).

Rust → Lean: files come parsed, and the directory walk is left out. Only the kinds of items that
`collect_enums` tells apart are told apart. An enum carries the place of its name, so that two enums
of a file differ.
-/

namespace CherryPit.NonExhaustive

/-! ## Items -/

/-- Rust `syn::Attribute`: its path, and the tokens of the list after it if there is one. -/
structure Attribute where
  path : Path
  args : Option (List TokenTree)

/-- Rust `syn::Visibility`. -/
inductive Visibility where
  | pub
  | restricted
  | inherited
  deriving DecidableEq

/-- Rust `proc_macro2::LineColumn`. -/
structure LineColumn where
  line : Nat
  column : Nat

/-- Rust `syn::ItemEnum`, with the place of its name. -/
structure ItemEnum where
  attrs : List Attribute
  vis : Visibility
  ident : Ident
  start : LineColumn

/-- Rust `syn::Item`; a module has its content here or in a file of its own. -/
inductive Item where
  | enum (item : ItemEnum)
  | inlineMod (attrs : List Attribute) (content : List Item)
  | fileMod (attrs : List Attribute)
  | other

/-! ## What is collected and what is flagged -/

/-- Rust `attr_path_is`. -/
def attrPathIs (attr : Attribute) (name : String) : Bool := attr.path.isIdent name

/-- Rust `is_cfg_disabled_without_test`. -/
def isCfgDisabledWithoutTest (attr : Attribute) : Bool :=
  attrPathIs attr "cfg" && attr.args.bind evaluateArgs == some .false

mutual

/-- The enums that an item adds. -/
def Item.enums : Item → List ItemEnum
  | .enum item => [item]
  | .inlineMod attrs content =>
    if attrs.any isCfgDisabledWithoutTest then [] else collectEnums content
  | .fileMod _ | .other => []

/-- Rust `collect_enums`. -/
def collectEnums : List Item → List ItemEnum
  | [] => []
  | item :: items => item.enums ++ collectEnums items

end

section Gate

variable (parser : PathParser)

/-- Rust `derive_idents`. -/
def deriveIdents (attr : Attribute) : List String :=
  if attrPathIs attr "derive" then
    let paths := (attr.args.bind (parseTerminated isComma parser.parse)).getD []
    paths.filterMap fun path => path.segments.getLast?.map fun segment => segment.ident.toString
  else []

/-- Rust `is_violation`. -/
def isViolation (item : ItemEnum) : Bool :=
  if item.vis ≠ .pub ∨ item.attrs.any isCfgDisabledWithoutTest then false
  else
    let hasNonExhaustive := item.attrs.any fun attr => attrPathIs attr "non_exhaustive"
    let isErrorType := (item.attrs.flatMap (deriveIdents parser)).contains "Error"
    isErrorType && hasNonExhaustive

end Gate

/-! ## What ships -/

/-- The attribute makes what it stands on depend on the predicate. -/
def Attribute.Configures (attr : Attribute) (predicate : Predicate) : Prop :=
  attrPathIs attr "cfg" = true ∧
    ∃ tokens, attr.args = some tokens ∧ Terminated isComma Spells [predicate] tokens

/-- What has these attributes is compiled under the assignment. -/
def Enabled (assignment : Assignment) (attrs : List Attribute) : Prop :=
  ∀ attr ∈ attrs, ∀ predicate, attr.Configures predicate → predicate.holds assignment = true

/-- The enum stands among the items, in inline modules that have these attributes. -/
inductive Occurs (item : ItemEnum) : List (List Attribute) → List Item → Prop where
  | here {items} :
    .enum item ∈ items →
    Occurs item [] items
  | inside {attrs content outer items} :
    .inlineMod attrs content ∈ items →
    Occurs item outer content →
    Occurs item (attrs :: outer) items

/-- The attribute derives a trait that is called `Error`. -/
def Attribute.DerivesError (parser : PathParser) (attr : Attribute) : Prop :=
  attrPathIs attr "derive" = true ∧
    ∃ tokens paths, attr.args = some tokens ∧
      Terminated isComma (SpellsPath parser.generics) paths tokens ∧
      ∃ path ∈ paths, path.segments.getLast?.map PathSegment.ident = some ⟨false, "Error"⟩

/-- An error enum that is public and not closed. -/
structure IsOpenError (parser : PathParser) (item : ItemEnum) : Prop where
  vis : item.vis = .pub
  derives : ∃ attr ∈ item.attrs, attr.DerivesError parser
  nonExhaustive : ∃ attr ∈ item.attrs, attrPathIs attr "non_exhaustive" = true

section Shipped

variable {parser : PathParser} {assignment : Assignment}
  {attr : Attribute} {attrs : List Attribute} {item : ItemEnum} {items : List Item}
  {outer : List (List Attribute)}

lemma mem_collectEnums : item ∈ collectEnums items ↔ ∃ member ∈ items, item ∈ member.enums := by
  induction items with
  | nil => simp [collectEnums]
  | cons member items ih => rw [collectEnums, List.mem_append, ih, List.exists_mem_cons_iff]

/-- A predicate that is evaluated to true holds without tests. -/
lemma Attribute.Configures.holds {predicate : Predicate} (h : attr.Configures predicate)
    (test : assignment.option "test" = false)
    (evaluated : attr.args.bind evaluateArgs = some .true) :
    predicate.holds assignment = true := by
  obtain ⟨_, tokens, args, spelled⟩ := h
  rw [args, Option.bind_some, evaluateArgs_iff.mpr ⟨predicate, spelled, rfl⟩] at evaluated
  exact (predicate.truth_allows test).isTrue (Option.some.inj evaluated)

/-- What is compiled without tests is not taken for disabled. -/
lemma Enabled.not_disabled (test : assignment.option "test" = false)
    (enabled : Enabled assignment attrs) : attrs.any isCfgDisabledWithoutTest = false := by
  refine List.any_eq_false.mpr fun attr mem disabled => ?_
  obtain ⟨isCfg, evaluated⟩ := (Bool.and_eq_true _ _).mp disabled
  obtain ⟨tokens, args, evaluated⟩ := Option.bind_eq_some_iff.mp (beq_iff_eq.mp evaluated)
  obtain ⟨predicate, spelled, known⟩ := evaluateArgs_iff.mp evaluated
  have holds := enabled attr mem predicate ⟨isCfg, tokens, args, spelled⟩
  rw [(predicate.truth_allows test).isFalse known] at holds
  cases holds

/-- An enum is collected unless a module around it is disabled. -/
lemma Occurs.collected (h : Occurs item outer items)
    (enabled : ∀ attrs ∈ outer, attrs.any isCfgDisabledWithoutTest = false) :
    item ∈ collectEnums items := by
  induction h with
  | here mem =>
    refine mem_collectEnums.mpr ⟨_, mem, ?_⟩
    rw [Item.enums]
    exact List.mem_cons_self
  | @inside attrs content outer items mem _ ih =>
    refine mem_collectEnums.mpr ⟨_, mem, ?_⟩
    rw [Item.enums, enabled attrs List.mem_cons_self]
    exact ih fun attrs mem => enabled attrs (List.mem_cons_of_mem _ mem)

lemma Attribute.DerivesError.mem_deriveIdents (h : attr.DerivesError parser) :
    "Error" ∈ deriveIdents parser attr := by
  obtain ⟨isDerive, tokens, paths, args, spelled, path, mem, last⟩ := h
  have read : parseTerminated isComma parser.parse tokens = some (paths.map id) :=
    spelled.parseTerminated (fun _ _ spelled => spelled.ne_nil)
      fun _ _ _ spelled _ ends => parser.reads spelled ends
  obtain ⟨segment, isLast, isError⟩ := Option.map_eq_some_iff.mp last
  rw [deriveIdents, if_pos isDerive, args, Option.bind_some, read, List.map_id]
  refine List.mem_filterMap.mpr ⟨path, mem, ?_⟩
  rw [isLast, Option.map_some, isError]
  rfl

/-- An open error enum is a violation unless it is disabled. -/
lemma IsOpenError.flagged (h : IsOpenError parser item)
    (enabled : item.attrs.any isCfgDisabledWithoutTest = false) :
    isViolation parser item = true := by
  obtain ⟨attr, mem, derives⟩ := h.derives
  have isError : (item.attrs.flatMap (deriveIdents parser)).contains "Error" = true :=
    List.contains_iff_mem.mpr (List.mem_flatMap.mpr ⟨attr, mem, derives.mem_deriveIdents⟩)
  have isOpen : (item.attrs.any fun attr => attrPathIs attr "non_exhaustive") = true :=
    List.any_eq_true.mpr h.nonExhaustive
  rw [isViolation, if_neg (by simp [h.vis, enabled])]
  show (_ && _) = true
  rw [isError, isOpen]
  rfl

/-- An open error enum that is compiled without tests is collected and flagged. -/
lemma IsOpenError.shipped (h : IsOpenError parser item) (occurs : Occurs item outer items)
    (test : assignment.option "test" = false)
    (enabled : ∀ attrs ∈ item.attrs :: outer, Enabled assignment attrs) :
    item ∈ collectEnums items ∧ isViolation parser item = true := by
  have own := (enabled _ List.mem_cons_self).not_disabled test
  refine ⟨occurs.collected fun attrs mem => ?_, h.flagged own⟩
  exact (enabled attrs (List.mem_cons_of_mem _ mem)).not_disabled test

/-- A predicate is evaluated to a value that is right without tests, and an open error enum that is
compiled without tests is collected and flagged. -/
theorem shipped_is_flagged (test : assignment.option "test" = false) :
    (∀ predicate tokens, Spells predicate tokens →
      ∃ value, CfgTruth.parse tokens = some (value, []) ∧
        (value = .false → predicate.holds assignment = false) ∧
        (value = .true → predicate.holds assignment = true)) ∧
    ∀ items item outer, Occurs item outer items → IsOpenError parser item →
      (∀ attrs ∈ item.attrs :: outer, Enabled assignment attrs) →
      item ∈ collectEnums items ∧ isViolation parser item = true := by
  constructor
  · intro predicate tokens spelled
    have read : CfgTruth.parse (tokens ++ []) = some (predicate.truth, []) := spelled.parse rfl
    rw [List.append_nil] at read
    have allows := predicate.truth_allows test
    exact ⟨predicate.truth, read, allows.isFalse, allows.isTrue⟩
  · intro items item outer occurs openError enabled
    exact openError.shipped occurs test enabled

end Shipped

/-- No option is set. -/
def noOptions : Assignment where
  option _ := false
  keyValue _ _ := false

/-- An attribute that is a single word, with a list after it or without. -/
def Attribute.ofWord (word : String) (args : Option (List TokenTree)) : Attribute where
  path := ⟨false, [⟨⟨false, word⟩, false⟩]⟩
  args := args

/-- The tokens `thiserror::Error`. -/
def thiserror : List TokenTree :=
  [.ident ⟨false, "thiserror"⟩, .punct ':' true, .punct ':' false, .ident ⟨false, "Error"⟩]

/-- The tokens `not(test)`. -/
def notTest : List TokenTree :=
  [.ident ⟨false, "not"⟩, .group .parenthesis [.ident ⟨false, "test"⟩]]

/-- `#[derive(thiserror::Error)] #[non_exhaustive] pub enum E { .. }`. -/
def openEnum : ItemEnum where
  attrs := [.ofWord "derive" thiserror, .ofWord "non_exhaustive" none]
  vis := .pub
  ident := ⟨false, "E"⟩
  start := ⟨3, 17⟩

/-- In a module with `#[cfg(not(test))]`, which is compiled without tests, the enum is flagged. -/
theorem shipped_is_flagged_notTest :
    openEnum ∈ collectEnums [.inlineMod [.ofWord "cfg" notTest] [.enum openEnum]] ∧
      isViolation plainPaths openEnum = true := by
  have occurs : Occurs openEnum [[.ofWord "cfg" notTest]]
      [.inlineMod [.ofWord "cfg" notTest] [.enum openEnum]] :=
    .inside List.mem_cons_self (.here List.mem_cons_self)
  have segments : SpellsSegments plainPaths.generics
      [⟨⟨false, "thiserror"⟩, false⟩, ⟨⟨false, "Error"⟩, false⟩] thiserror :=
    SpellsSegments.cons (SpellsSegment.plain (.inr rfl)) (.last (.plain (.inr rfl)))
  have isOpen : IsOpenError plainPaths openEnum := by
    refine ⟨rfl, ⟨_, List.mem_cons_self, ?_⟩, ⟨_, List.mem_cons_of_mem _ List.mem_cons_self, rfl⟩⟩
    exact ⟨rfl, thiserror, [_], rfl, .last (.relative segments), _, List.mem_cons_self, rfl⟩
  have own : Enabled noOptions openEnum.attrs := by
    intro attr mem predicate configures
    rcases List.mem_pair.mp mem with rfl | rfl
    · exact absurd configures.1 (by decide)
    · exact absurd configures.1 (by decide)
  have around : Enabled noOptions [.ofWord "cfg" notTest] := by
    intro attr mem predicate configures
    cases List.mem_singleton.mp mem
    exact configures.holds rfl rfl
  have test : noOptions.option "test" = false := rfl
  have enabled := List.forall_mem_cons.mpr ⟨own, List.forall_mem_singleton.mpr around⟩
  exact (shipped_is_flagged test).2 _ _ _ occurs isOpen enabled

/-! ## The run -/

/-- A source file: its path, and its items if it can be read and parsed. -/
structure SourceFile where
  path : List String
  items : Option (List Item)

/-- Rust `Violation`. -/
structure Violation where
  path : List String
  line : Option Nat
  enumName : String

/-- What is counted and found so far. -/
structure Scan where
  cratesScanned : Nat
  enumsScanned : Nat
  violations : List Violation

/-- The order of paths, by their components. -/
def pathLe : List String → List String → Bool
  | [], _ => true
  | _ :: _, [] => false
  | a :: as, b :: bs => if a = b then pathLe as bs else decide (a ≤ b)

/-- Rust `LIBRARY_CRATES`. -/
def libraryCrates : List String :=
  ["crates/cherry-pit-core", "crates/cherry-pit-app", "crates/cherry-pit-gateway",
    "crates/cherry-pit-merger", "crates/cherry-pit-projection", "crates/cherry-pit-storage",
    "crates/cherry-pit-web", "crates/cherry-pit-wq", "crates/pardosa-cherry-pit-projection",
    "crates/pardosa-cherry-pit-test-support"]

/-- Rust `enum_span_line`. -/
def enumSpanLine (item : ItemEnum) : Option Nat :=
  if item.start.line = 0 then none else some item.start.line

def violationOf (path : List String) (item : ItemEnum) : Violation where
  path := path
  line := enumSpanLine item
  enumName := item.ident.toString

/-- The line that is printed for a violation. -/
def Violation.toLine (violation : Violation) : String :=
  let path := "/".intercalate violation.path
  let loc := match violation.line with
    | some line => path ++ ":" ++ line.repr
    | none => path
  "VIOLATION\t" ++ loc ++ "\t" ++ violation.enumName ++
    "\tforbidden #[non_exhaustive] on error enum (gh-report RST-0006:R1 closed enumeration policy)"

section Run

variable (parser : PathParser)

/-- A round on an enum. -/
def Scan.enum (path : List String) (scan : Scan) (item : ItemEnum) : Scan where
  cratesScanned := scan.cratesScanned
  enumsScanned := scan.enumsScanned + 1
  violations :=
    if isViolation parser item then scan.violations ++ [violationOf path item]
    else scan.violations

/-- A round on a file; it panics if the file cannot be read or parsed. -/
def Scan.file (scan : Scan) (file : SourceFile) : Option Scan :=
  file.items.map fun items => (collectEnums items).foldl (Scan.enum parser file.path) scan

/-- A round on a crate; it panics without sources. -/
def Scan.crate (sources : String → Option (List SourceFile)) (scan : Scan) (crate : String) :
    Option Scan :=
  (sources crate).bind fun files =>
    if files.isEmpty then none
    else
      (files.mergeSort fun a b => pathLe a.path b.path).foldlM (Scan.file parser)
        { scan with cratesScanned := scan.cratesScanned + 1 }

/-- The order in which violations are printed. -/
def Violation.le (a b : Violation) : Bool :=
  if a.path = b.path then decide (a.enumName ≤ b.enumName) else pathLe a.path b.path

/-- The exit code and the lines of a run. -/
def Scan.report (scan : Scan) : Nat × List String :=
  let scanned := scan.cratesScanned.repr ++ " library crates scanned, " ++
    scan.enumsScanned.repr ++ " pub enums, "
  if scan.violations.isEmpty then
    (0, ["OK: " ++ scanned ++
      "0 violations (syntax-only predicate; enum count includes private declarations)"])
  else
    (1, (scan.violations.mergeSort Violation.le).map Violation.toLine ++
      ["SUMMARY: " ++ scanned ++ scan.violations.length.repr ++ " violations"])

/-- Rust `main` without arguments, unless it panics. -/
def main (sources : String → Option (List SourceFile)) : Option (Nat × List String) :=
  (libraryCrates.foldlM (Scan.crate parser sources) ⟨0, 0, []⟩).map Scan.report

end Run

section Reports

variable {parser : PathParser}
  {sources : String → Option (List SourceFile)} {scan scan' : Scan} {violation : Violation}
  {file : SourceFile} {crate : String} {lines path : List String} {code : Nat}

/-- The file has the enum of the violation, collected and flagged. -/
def SourceFile.Flags (parser : PathParser) (file : SourceFile) (violation : Violation) : Prop :=
  ∃ items, file.items = some items ∧
    ∃ item ∈ collectEnums items,
      isViolation parser item = true ∧ violation = violationOf file.path item

/-- A file of the crate has the enum of the violation. -/
def Flags (parser : PathParser) (sources : String → Option (List SourceFile)) (crate : String)
    (violation : Violation) : Prop :=
  ∃ files, sources crate = some files ∧ ∃ file ∈ files, file.Flags parser violation

lemma Scan.mem_enum {item : ItemEnum} :
    violation ∈ (scan.enum parser path item).violations ↔
      violation ∈ scan.violations ∨
        (isViolation parser item = true ∧ violation = violationOf path item) := by
  unfold Scan.enum
  split
  next flagged => simp [flagged]
  next passed => simp [passed]

lemma Scan.mem_enums {items : List ItemEnum} :
    violation ∈ (items.foldl (Scan.enum parser path) scan).violations ↔
      violation ∈ scan.violations ∨
        ∃ item ∈ items, isViolation parser item = true ∧ violation = violationOf path item := by
  induction items generalizing scan with
  | nil => simp
  | cons item items ih =>
    rw [List.foldl_cons, ih, Scan.mem_enum, List.exists_mem_cons_iff, or_assoc]

lemma Scan.mem_file (h : scan.file parser file = some scan') :
    violation ∈ scan'.violations ↔
      violation ∈ scan.violations ∨ file.Flags parser violation := by
  obtain ⟨items, parsed, rfl⟩ := Option.map_eq_some_iff.mp h
  rw [Scan.mem_enums]
  simp [SourceFile.Flags, parsed]

lemma Scan.mem_crate (h : Scan.crate parser sources scan crate = some scan') :
    violation ∈ scan'.violations ↔
      violation ∈ scan.violations ∨ Flags parser sources crate violation := by
  obtain ⟨files, present, h⟩ := Option.bind_eq_some_iff.mp h
  obtain ⟨_, h⟩ := Option.ite_none_left_eq_some.mp h
  have read := mem_foldlM Scan.violations (SourceFile.Flags parser)
    (fun _ _ _ h _ => Scan.mem_file h) h violation
  rw [read]
  simp [Flags, present, List.mem_mergeSort]

/-- A run that does not panic has found the flagged enums of the library crates. -/
lemma exists_scan (ran : main parser sources = some (code, lines)) :
    ∃ scan : Scan, scan.report = (code, lines) ∧
      ∀ violation, violation ∈ scan.violations ↔
        ∃ crate ∈ libraryCrates, Flags parser sources crate violation := by
  obtain ⟨scan, scanned, report⟩ := Option.map_eq_some_iff.mp ran
  refine ⟨scan, report, fun violation => ?_⟩
  rw [mem_foldlM Scan.violations (Flags parser sources) (fun _ _ _ h _ => Scan.mem_crate h)
    scanned violation]
  simp

/-- A run that does not panic fails and prints a line for each open error enum of a library crate
that is compiled without tests. -/
theorem main_reports {assignment : Assignment} {files : List SourceFile} {items : List Item}
    {item : ItemEnum} {outer : List (List Attribute)} (test : assignment.option "test" = false)
    (ran : main parser sources = some (code, lines)) (library : crate ∈ libraryCrates)
    (present : sources crate = some files) (mem : file ∈ files) (parsed : file.items = some items)
    (occurs : Occurs item outer items) (openError : IsOpenError parser item)
    (enabled : ∀ attrs ∈ item.attrs :: outer, Enabled assignment attrs) :
    code = 1 ∧ (violationOf file.path item).toLine ∈ lines := by
  obtain ⟨collected, flagged⟩ := openError.shipped occurs test enabled
  obtain ⟨scan, report, found⟩ := exists_scan ran
  have violation : violationOf file.path item ∈ scan.violations :=
    (found _).mpr ⟨crate, library, files, present, file, mem, items, parsed, item, collected,
      flagged, rfl⟩
  have nonempty : scan.violations.isEmpty = false :=
    List.isEmpty_eq_false_iff.mpr (List.ne_nil_of_mem violation)
  rw [Scan.report, nonempty] at report
  cases report
  refine ⟨rfl, List.mem_append_left _ (List.mem_map_of_mem ?_)⟩
  exact List.mem_mergeSort.mpr violation

end Reports

end CherryPit.NonExhaustive
