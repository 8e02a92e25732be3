import Formula.Command
import Formula.Proofs.Decimal.Reading
import Formula.Proofs.Resolution.Filling
import Formula.Proofs.Token.Lexing

/-!
# Values that were shown are read again

What is shown of a value can be given back. Arguments that name variables and show values of their
types are read as the table of those values, in whatever order they come; of several values for a
variable the last one counts. A line of input that is put together from such arguments is read as
the same table, unless a text holds blanks, where the line would come apart.

## Main definitions

* `writtenOverride`: a variable with what is shown of its value
* `Registry.Admits`: a variable is declared with the type of a value

## Main results

* `Registry.readOverride_written`: one argument is read as the value that was shown
* `Registry.readOverrides_written`: arguments are put into a table one after the other
* `Evaluator.reads_written`: what that table is, for arguments and for a line of input
-/

namespace Formula

/-! ## One argument -/

/-- A variable with what is shown of its value. -/
def writtenOverride (o : String × Scalar) : String :=
  o.1 ++ "=" ++ o.2.text

/-- The variable is declared with the type of the value. -/
def Registry.Admits (r : Registry) (o : String × Scalar) : Prop :=
  (r.declared? o.1).map Variable.type = some o.2.type

instance (r : Registry) (o : String × Scalar) : Decidable (r.Admits o) :=
  inferInstanceAs (Decidable (_ = _))

@[simp]
theorem toList_writtenOverride (o : String × Scalar) :
    (writtenOverride o).toList = o.1.toList ++ '=' :: o.2.text.toList := by
  simp [writtenOverride]

/-- No character of a word is a blank or an equals sign. -/
theorem isBlank_of_isWord {cs : List Char} (h : isWord cs = true) :
    ∀ c ∈ cs, Text.isBlank c = false ∧ c ≠ '=' := by
  cases cs with
  | nil => simp
  | cons c cs =>
    rw [isWord, Bool.and_eq_true, List.all_eq_true] at h
    intro d hd
    rcases List.mem_cons.mp hd with rfl | hd
    · refine ⟨(startsName_cases h.1).2.1, ?_⟩
      rintro rfl
      exact absurd h.1 (by decide)
    · refine ⟨Text.isBlank_of_continuesName (h.2 d hd), ?_⟩
      rintro rfl
      exact absurd (h.2 _ hd) (by decide)

namespace Registry

variable {r : Registry} {o : String × Scalar} {given : List (String × Scalar)}

/-- A variable that admits a value has one of the names that are declared. -/
theorem Admits.word (hnames : ∀ v ∈ r.vars, isWord v.name.toList = true) (h : r.Admits o) :
    isWord o.1.toList = true := by
  obtain ⟨v, hv, -⟩ := Option.map_eq_some_iff.mp h
  have hname : v.name = o.1 := by simpa using List.find?_some hv
  exact hname ▸ hnames v (List.mem_of_find?_eq_some hv)

/-- **One argument is read as the value that was shown**, whatever its text. -/
theorem readOverride_written (hword : isWord o.1.toList = true) (h : r.Admits o) :
    r.readOverride (writtenOverride o) = .ok o := by
  obtain ⟨v, hv, htype⟩ := Option.map_eq_some_iff.mp h
  have hname := isBlank_of_isWord hword
  simp only [readOverride, toList_writtenOverride,
    splitEquals_append (fun hmem => (hname _ hmem).2 rfl),
    Text.trimList_eq_self (fun c hc => (hname c hc).1), String.ofList_toList, hv, htype,
    ScalarType.read?_text]

/-- Arguments are put into a table one after the other. -/
theorem readOverridesInto_written (hnames : ∀ v ∈ r.vars, isWord v.name.toList = true)
    (h : ∀ o ∈ given, r.Admits o) (values : Bindings Scalar) :
    r.readOverridesInto values (given.map writtenOverride) = .ok (values.setAll given) := by
  induction given generalizing values with
  | nil => rfl
  | cons o given ih =>
    obtain ⟨ho, hgiven⟩ := List.forall_mem_cons.mp h
    simp only [List.map_cons, readOverridesInto, readOverride_written (ho.word hnames) ho]
    exact ih hgiven _

theorem readOverrides_written (hnames : ∀ v ∈ r.vars, isWord v.name.toList = true)
    (h : ∀ o ∈ given, r.Admits o) :
    r.readOverrides (given.map writtenOverride) = .ok (Bindings.setAll [] given) :=
  readOverridesInto_written hnames h []

/-! ## A line of arguments -/

/-- Arguments without blanks in their texts are the words of the line that they are joined to. -/
theorem words_written (hnames : ∀ v ∈ r.vars, isWord v.name.toList = true)
    (h : ∀ o ∈ given, r.Admits o)
    (hblank : ∀ o ∈ given, ∀ c ∈ o.2.text.toList, Text.isBlank c = false) :
    Text.words (Text.trim (" ".intercalate (given.map writtenOverride))) =
      given.map writtenOverride := by
  rw [Text.words_trim]
  refine Text.words_intercalate (fun t ht => ?_) fun t ht c hc => ?_
  · obtain ⟨o, -, rfl⟩ := List.mem_map.mp ht
    intro hnil
    simpa using congrArg String.toList hnil
  · obtain ⟨o, ho, rfl⟩ := List.mem_map.mp ht
    rw [toList_writtenOverride] at hc
    rcases List.mem_append.mp hc with hc | hc
    · exact (isBlank_of_isWord ((h o ho).word hnames) c hc).1
    · rcases List.mem_cons.mp hc with rfl | hc
      · rfl
      · exact hblank o ho c hc

end Registry

/-! ## The answer to a line -/

/-- What is answered to a line whose values were read. -/
def Command.reportOf : Except EvaluationError Scalar → Report
  | .ok value => .line value.text
  | .error x => { errors := "error: " ++ x.message ++ "\n" }

/-- A line of arguments is none of the commands, and is answered by an evaluation. -/
theorem Command.lineReport?_of_words {e : Evaluator} {line text : String} {m : Bindings Scalar}
    {texts : List String} (hline : Text.applyBackspaces line = text)
    (hwords : Text.words (Text.trim text) = texts) (hequals : ∀ t ∈ texts, '=' ∈ t.toList)
    (hread : e.registry.readOverrides texts = .ok m) (world : World) (fuel : Nat) :
    lineReport? e world fuel line = some (reportOf (e.evaluate world fuel m)) := by
  have hnone : ∀ command, Text.words command = [command] → '=' ∉ command.toList →
      Text.trim text ≠ command := by
    rintro command hone hno rfl
    exact hno (hequals _ (hwords ▸ hone ▸ List.mem_cons_self))
  rw [lineReport?, hline]
  split
  · exact absurd ‹_› (hnone ":quit" rfl (by decide))
  · exact absurd ‹_› (hnone ":exit" rfl (by decide))
  · exact absurd ‹_› (hnone ":source" rfl (by decide))
  · simp only [evaluateWritten, hwords, hread]
    cases e.evaluate world fuel m <;> rfl

/-- **Values that were shown are read again.** Arguments that show values of the declared types are
read as a table in which the last value for a name counts; arguments for different variables are
read as they are, and so as the same table in any order. Arguments without blanks in their texts,
joined to a line, are read as the same table, and every line of input that is such a line when its
backspaces are applied is answered by an evaluation with it. -/
theorem Evaluator.reads_written (e : Evaluator)
    (hnames : ∀ v ∈ e.registry.vars, isWord v.name.toList = true)
    {given : List (String × Scalar)} (hgiven : ∀ o ∈ given, e.registry.Admits o) :
    ∃ m : Bindings Scalar, e.registry.readOverrides (given.map writtenOverride) = .ok m ∧
      (m.map Prod.fst).Nodup ∧
      (∀ name, m.get? name = Bindings.get? given.reverse name) ∧
      (∀ values : Bindings Scalar, (values.map Prod.fst).Nodup → given.Perm values →
        m = given ∧ ∀ name, m.get? name = values.get? name) ∧
      ((∀ o ∈ given, ∀ c ∈ o.2.text.toList, Text.isBlank c = false) →
        e.registry.readOverrides
            (Text.words (Text.trim (" ".intercalate (given.map writtenOverride)))) = .ok m ∧
          ∀ line, Text.applyBackspaces line = " ".intercalate (given.map writtenOverride) →
            ∀ world fuel, Command.lineReport? e world fuel line =
              some (Command.reportOf (e.evaluate world fuel m))) := by
  have hread := Registry.readOverrides_written hnames hgiven
  refine ⟨_, hread, Bindings.nodup_setAll (b := []) .nil given, fun name => ?_,
    fun values hnodup hperm => ?_, fun hblank => ?_⟩
  · rw [Bindings.get?_setAll, Bindings.get?_nil, Option.or_none]
  · have hdistinct := (hperm.map Prod.fst).nodup_iff.mpr hnodup
    have hself : Bindings.setAll [] given = given := Bindings.setAll_of_nodup hdistinct
    rw [hself]
    exact ⟨rfl, fun name => Bindings.get?_eq_of_perm hdistinct hperm name⟩
  · have hwords := Registry.words_written hnames hgiven hblank
    refine ⟨by rw [hwords, hread], fun line hline => ?_⟩
    refine Command.lineReport?_of_words hline hwords (fun t ht => ?_) hread
    obtain ⟨o, -, rfl⟩ := List.mem_map.mp ht
    simp

/-- Variables of all four types. -/
def Evaluator.ofFourTypes : Evaluator where
  registry := { vars := [⟨"Count", .int, none⟩, ⟨"Rate", .float, none⟩, ⟨"Label", .string, none⟩,
    ⟨"Exact", .bool, none⟩] }

/-- The least integer, a text with blanks and an equals sign, an infinity and a negative zero. -/
theorem Evaluator.reads_written_ofFourTypes : ∃ m : Bindings Scalar,
    ofFourTypes.registry.readOverrides
        ["Label= a=b ", "Count=-9223372036854775808", "Exact=true", "Rate=+Inf", "Rate=-0"] =
      .ok m ∧
      m.get? "Label" = some (.string " a=b ") ∧
      m.get? "Count" = some (.int (-9223372036854775808)) ∧
      m.get? "Exact" = some (.bool true) ∧ m.get? "Rate" = some (.float (-0)) := by
  have hgiven : ∀ o ∈ ([("Label", .string " a=b "), ("Count", .int (-9223372036854775808)),
      ("Exact", .bool true), ("Rate", .float (1 / 0)), ("Rate", .float (-0))] :
      List (String × Scalar)), ofFourTypes.registry.Admits o := by
    decide
  obtain ⟨m, hread, -, hlast, -⟩ := ofFourTypes.reads_written (by decide) hgiven
  exact ⟨m, hread, hlast _, hlast _, hlast _, hlast _⟩

end Formula
