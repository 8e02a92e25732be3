import Formula.Json.Reading
import Formula.Json.Writing
import Formula.Proofs.Json.Number

/-!
# Trees read back

The text of a tree is read as that tree, if nothing in the tree is broken and its numbers are those
that texts stand for. Whatever is read has such numbers, also where the text is not well formed.

## Main definitions

* `JsonTree.numbers`: the numbers in a tree
* `JsonTree.IsWhole`: nothing in the tree is broken

## Main results

* `JsonTree.ofText_text`: the text of a tree is read as that tree
* `JsonTree.hasProperNumbers_ofText`: the numbers of a tree that was read are proper
-/

namespace Formula

mutual

/-- The numbers in a tree, in the order of the text. -/
def JsonTree.numbers : JsonTree → List JsonNumber
  | .number n => [n]
  | .array items => items.numbers
  | .object entries => entries.numbers
  | .null | .bool _ | .string _ | .unreadable _ | .broken _ => []

@[inherit_doc JsonTree.numbers]
def JsonItems.numbers : JsonItems → List JsonNumber
  | .nil | .stop _ => []
  | .cons item items => item.numbers ++ items.numbers

@[inherit_doc JsonTree.numbers]
def JsonEntries.numbers : JsonEntries → List JsonNumber
  | .nil | .stop _ => []
  | .cons _ value entries => value.numbers ++ entries.numbers

end

mutual

/-- Nothing in a tree is broken, and every text in it stands for something. -/
def JsonTree.IsWhole : JsonTree → Prop
  | .null | .bool _ | .number _ | .string _ => True
  | .array items => items.IsWhole
  | .object entries => entries.IsWhole
  | .unreadable _ | .broken _ => False

@[inherit_doc JsonTree.IsWhole]
def JsonItems.IsWhole : JsonItems → Prop
  | .nil => True
  | .stop _ => False
  | .cons item items => item.IsWhole ∧ items.IsWhole

@[inherit_doc JsonTree.IsWhole]
def JsonEntries.IsWhole : JsonEntries → Prop
  | .nil => True
  | .stop _ => False
  | .cons (.ok _) value entries => value.IsWhole ∧ entries.IsWhole
  | .cons (.error _) _ _ => False

end

/-- The numbers in a tree are those that texts stand for. -/
def JsonTree.HasProperNumbers (t : JsonTree) : Prop :=
  ∀ n ∈ t.numbers, n.Proper

/-- The trees that have a text: they are whole, and their numbers are proper. -/
structure JsonTree.Writable (t : JsonTree) : Prop where
  whole : t.IsWhole
  proper : t.HasProperNumbers

@[inherit_doc JsonTree.Writable]
structure JsonItems.Writable (items : JsonItems) : Prop where
  whole : items.IsWhole
  proper : ∀ n ∈ items.numbers, n.Proper

@[inherit_doc JsonTree.Writable]
structure JsonEntries.Writable (entries : JsonEntries) : Prop where
  whole : entries.IsWhole
  proper : ∀ n ∈ entries.numbers, n.Proper

theorem JsonItems.Writable.of_cons {item : JsonTree} {items : JsonItems}
    (h : (JsonItems.cons item items).Writable) : item.Writable ∧ items.Writable :=
  ⟨⟨h.whole.1, fun n hn => h.proper n (List.mem_append_left _ hn)⟩,
    ⟨h.whole.2, fun n hn => h.proper n (List.mem_append_right _ hn)⟩⟩

theorem JsonEntries.Writable.of_cons {key : Except ReadError String} {value : JsonTree}
    {entries : JsonEntries} (h : (JsonEntries.cons key value entries).Writable) :
    ∃ name, key = .ok name ∧ value.Writable ∧ entries.Writable := by
  cases key with
  | error e => exact h.whole.elim
  | ok name =>
    exact ⟨name, rfl, ⟨h.whole.1, fun n hn => h.proper n (List.mem_append_left _ hn)⟩,
      ⟨h.whole.2, fun n hn => h.proper n (List.mem_append_right _ hn)⟩⟩

namespace Json

variable {cs rest more : List Char}

/-- **What is read at the head of a text** that goes on well formed: a value, and then `rest` is
left. -/
def Leaves {α : Type} (read : α × Option (Rest cs)) (a : α) (rest : List Char) : Prop :=
  ∃ h, read = (a, some ⟨rest, h⟩)

/-! ## Blanks -/

/-- Nothing but blanks. -/
def AllBlank (cs : List Char) : Prop :=
  ∀ c ∈ cs, isBlank c = true

theorem allBlank_nil : AllBlank [] :=
  nofun

theorem allBlank_lineBreak (depth : Nat) : AllBlank (lineBreak depth).toList := by
  intro c hc
  simp only [lineBreak, String.toList_append, String.toList_ofList, List.mem_append,
    List.mem_replicate] at hc
  rcases hc with hc | ⟨-, rfl⟩
  · rw [show c = '\n' by simpa using hc]
    decide
  · decide

theorem nextChar?_append {blanks : List Char} (hblanks : AllBlank blanks) {c : Char}
    (hc : isBlank c = false) (cs : List Char) :
    ∃ h, nextChar? (blanks ++ c :: cs) = some (c, ⟨cs, h⟩) := by
  have hskip : skipBlanks (blanks ++ c :: cs) = c :: cs := by
    rw [skipBlanks, List.dropWhile_append_of_pos hblanks, List.dropWhile_cons_of_neg (by simp [hc])]
  refine ⟨by simp only [List.length_append, List.length_cons]; omega, ?_⟩
  unfold nextChar?
  split
  · rename_i heq
    rw [hskip] at heq
    cases heq
  · rename_i heq
    rw [hskip] at heq
    cases heq
    rfl

theorem nextChar?_cons {c : Char} (hc : isBlank c = false) (cs : List Char) :
    ∃ h, nextChar? (c :: cs) = some (c, ⟨cs, h⟩) :=
  nextChar?_append allBlank_nil hc cs

/-! ## Values without parts -/

theorem readLetters_append (letters rest : List Char) :
    ∃ h, readLetters letters (letters ++ rest) = .ok ⟨rest, h⟩ := by
  induction letters with
  | nil => exact ⟨Nat.le_refl _, rfl⟩
  | cons letter letters ih =>
    obtain ⟨h, hread⟩ := ih
    refine ⟨h.trans (Nat.le_succ _), ?_⟩
    have hcons : readLetters (letter :: letters) (letter :: (letters ++ rest)) =
      (readLetters letters (letters ++ rest)).map fun r => ⟨r.1, r.2.trans (Nat.le_succ _)⟩ := by
      change (if letter = letter then _ else _) = _
      rw [if_pos rfl]
      cases readLetters letters (letters ++ rest) <;> rfl
    rw [hread] at hcons
    exact hcons

theorem wordNode_append (letters : String) (value : JsonTree) (rest : List Char) {h} :
    Leaves (wordNode letters value (⟨letters.toList ++ rest, h⟩ : Rest cs)) value rest := by
  obtain ⟨hle, hread⟩ := readLetters_append letters.toList rest
  refine ⟨hle.trans_lt h, ?_⟩
  simp only [wordNode, hread]

theorem textNode_writeText (s : String) (rest : List Char) {h} :
    Leaves (textNode (⟨s.toList.flatMap writeChar ++ '"' :: rest, h⟩ : Rest cs)) (.string s) rest := by
  obtain ⟨hlt, hread⟩ := textAt_writeText s rest
  refine ⟨hlt.trans h, ?_⟩
  simp only [textNode, hread]
  rfl

/-! ## Rules of reading

What is read at the head of a text is determined by the first character that is not blank, and by
what is read behind it. -/

section Rules

variable {blanks : List Char}

theorem leaves_string (hblanks : AllBlank blanks) (s : String) (rest : List Char) :
    Leaves (readValue (blanks ++ '"' :: (s.toList.flatMap writeChar ++ '"' :: rest))) (.string s) rest := by
  obtain ⟨hlt, hnext⟩ := nextChar?_append (c := '"') hblanks (by decide)
    (s.toList.flatMap writeChar ++ '"' :: rest)
  rw [readValue]
  simp only [hnext, if_true]
  exact textNode_writeText s rest

/-- What a number begins with begins nothing else. -/
theorem ne_of_number {c : Char} (hc : c = '-' ∨ c.isDigit = true) :
    isBlank c = false ∧ c ≠ ']' ∧ c ≠ '"' ∧ c ≠ '[' ∧ c ≠ '\x7b' := by
  rcases hc with rfl | hc
  · decide
  · refine ⟨?_, ?_, ?_, ?_, ?_⟩
    · simp only [isBlank, Bool.or_eq_false_iff, decide_eq_false_iff_not]
      refine ⟨⟨⟨?_, ?_⟩, ?_⟩, ?_⟩ <;> rintro rfl <;> exact absurd hc (by decide)
    all_goals rintro rfl; exact absurd hc (by decide)

theorem leaves_number {c : Char} {n : JsonNumber} {h} (hblanks : AllBlank blanks)
    (hc : c = '-' ∨ c.isDigit = true) (hread : readNumber (c :: cs) = .ok (.ok n, ⟨rest, h⟩)) :
    Leaves (readValue (blanks ++ c :: cs)) (.number n) rest := by
  obtain ⟨hblank, -, hquote, hbracket, hbrace⟩ := ne_of_number hc
  obtain ⟨hlt, hnext⟩ := nextChar?_append hblanks hblank cs
  refine ⟨(Nat.lt_succ_iff.mp h).trans_lt hlt, ?_⟩
  rw [readValue]
  simp only [hnext, hquote, hbracket, hbrace, hc, if_false, if_true, numberNode, hread]

theorem leaves_array {items : JsonItems} (hblanks : AllBlank blanks)
    (hread : Leaves (readFirstItem cs) items rest) :
    Leaves (readValue (blanks ++ '[' :: cs)) (.array items) rest := by
  obtain ⟨hlt, hnext⟩ := nextChar?_append (c := '[') hblanks (by decide) cs
  obtain ⟨h, hread⟩ := hread
  refine ⟨h.trans hlt, ?_⟩
  rw [readValue]
  simp only [hnext, hread]
  rfl

theorem leaves_object {entries : JsonEntries} (hblanks : AllBlank blanks)
    (hread : Leaves (readFirstEntry cs) entries rest) :
    Leaves (readValue (blanks ++ '\x7b' :: cs)) (.object entries) rest := by
  obtain ⟨hlt, hnext⟩ := nextChar?_append (c := '\x7b') hblanks (by decide) cs
  obtain ⟨h, hread⟩ := hread
  refine ⟨h.trans hlt, ?_⟩
  rw [readValue]
  simp only [hnext, hread]
  rfl

theorem leaves_word {c : Char} {letters : String} {value : JsonTree} (hblanks : AllBlank blanks)
    (hword : c = 'n' ∧ letters = "ull" ∧ value = .null ∨
      c = 't' ∧ letters = "rue" ∧ value = .bool true ∨
      c = 'f' ∧ letters = "alse" ∧ value = .bool false) (rest : List Char) :
    Leaves (readValue (blanks ++ c :: (letters.toList ++ rest))) value rest := by
  have hc : isBlank c = false := by rcases hword with ⟨rfl, -⟩ | ⟨rfl, -⟩ | ⟨rfl, -⟩ <;> decide
  obtain ⟨hlt, hnext⟩ := nextChar?_append hblanks hc (letters.toList ++ rest)
  rw [readValue]
  simp only [hnext]
  rcases hword with ⟨rfl, rfl, rfl⟩ | ⟨rfl, rfl, rfl⟩ | ⟨rfl, rfl, rfl⟩
  · exact wordNode_append "ull" .null rest
  · exact wordNode_append "rue" (.bool true) rest
  · exact wordNode_append "alse" (.bool false) rest

theorem leaves_firstItem {c : Char} {items : JsonItems} (hblanks : AllBlank blanks)
    (hc : isBlank c = false ∧ c ≠ ']') (hread : Leaves (readItem (blanks ++ c :: cs)) items rest) :
    Leaves (readFirstItem (blanks ++ c :: cs)) items rest := by
  obtain ⟨hlt, hnext⟩ := nextChar?_append hblanks hc.1 cs
  rw [readFirstItem]
  simp only [hnext, hc.2, if_false]
  exact hread

theorem leaves_item {t : JsonTree} {items : JsonItems} (hvalue : Leaves (readValue cs) t more)
    (hitems : Leaves (readMoreItems more) items rest) :
    Leaves (readItem cs) (.cons t items) rest := by
  obtain ⟨hlt, hvalue⟩ := hvalue
  obtain ⟨h, hitems⟩ := hitems
  refine ⟨h.trans hlt, ?_⟩
  rw [readItem]
  simp only [hvalue, hitems]
  rfl

theorem leaves_moreItems {items : JsonItems} (hread : Leaves (readItem cs) items rest) :
    Leaves (readMoreItems (',' :: cs)) items rest := by
  obtain ⟨hlt, hnext⟩ := nextChar?_cons (c := ',') (by decide) cs
  obtain ⟨h, hread⟩ := hread
  refine ⟨h.trans hlt, ?_⟩
  rw [readMoreItems]
  simp only [hnext, hread]
  rfl

theorem leaves_noMoreItems (hblanks : AllBlank blanks) (rest : List Char) :
    Leaves (readMoreItems (blanks ++ ']' :: rest)) .nil rest := by
  obtain ⟨hlt, hnext⟩ := nextChar?_append (c := ']') hblanks (by decide) rest
  refine ⟨hlt, ?_⟩
  rw [readMoreItems]
  simp only [hnext]
  rfl

theorem leaves_firstEntry {entries : JsonEntries} (hblanks : AllBlank blanks)
    (hread : Leaves (readEntry (blanks ++ '"' :: cs)) entries rest) :
    Leaves (readFirstEntry (blanks ++ '"' :: cs)) entries rest := by
  obtain ⟨hlt, hnext⟩ := nextChar?_append (c := '"') hblanks (by decide) cs
  rw [readFirstEntry]
  simp only [hnext]
  exact hread

theorem leaves_entry {name : String} {value : JsonTree} {entries : JsonEntries}
    (hblanks : AllBlank blanks) (hvalue : Leaves (readValue cs) value more)
    (hentries : Leaves (readMoreEntries more) entries rest) :
    Leaves (readEntry (blanks ++ '"' :: (name.toList.flatMap writeChar ++ '"' :: ':' :: cs)))
      (.cons (.ok name) value entries) rest := by
  obtain ⟨hlt, hnext⟩ := nextChar?_append (c := '"') hblanks (by decide)
    (name.toList.flatMap writeChar ++ '"' :: ':' :: cs)
  obtain ⟨hkey, htext⟩ := textAt_writeText name (':' :: cs)
  obtain ⟨hcolon, hbehind⟩ := nextChar?_cons (c := ':') (by decide) cs
  obtain ⟨hless, hvalue⟩ := hvalue
  obtain ⟨h, hentries⟩ := hentries
  have hkeyed : readKeyed (.ok name) (':' :: cs) =
      (.cons (.ok name) value entries, some ⟨rest, h.trans (hless.trans hcolon)⟩) := by
    rw [readKeyed]
    simp only [hbehind, hvalue, hentries]
    rfl
  refine ⟨(h.trans (hless.trans hcolon)).trans (hkey.trans hlt), ?_⟩
  rw [readEntry]
  simp only [hnext, htext, hkeyed]
  rfl

theorem leaves_moreEntries {entries : JsonEntries} (hread : Leaves (readEntry cs) entries rest) :
    Leaves (readMoreEntries (',' :: cs)) entries rest := by
  obtain ⟨hlt, hnext⟩ := nextChar?_cons (c := ',') (by decide) cs
  obtain ⟨h, hread⟩ := hread
  refine ⟨h.trans hlt, ?_⟩
  rw [readMoreEntries]
  simp only [hnext, hread]
  rfl

theorem leaves_noMoreEntries (hblanks : AllBlank blanks) (rest : List Char) :
    Leaves (readMoreEntries (blanks ++ '\x7d' :: rest)) .nil rest := by
  obtain ⟨hlt, hnext⟩ := nextChar?_append (c := '\x7d') hblanks (by decide) rest
  refine ⟨hlt, ?_⟩
  rw [readMoreEntries]
  simp only [hnext]
  rfl

end Rules

/-! ## Trees -/

/-- The text of a tree begins neither with a blank nor with the end of an array, and is read as the
tree whatever stands around it. -/
def ReadsBack (t : JsonTree) : Prop :=
  ∀ depth, ∃ c cs, (t.write depth).toList = c :: cs ∧ isBlank c = false ∧ c ≠ ']' ∧
    ∀ blanks rest, AllBlank blanks → EndsNumber rest →
      Leaves (readValue (blanks ++ c :: (cs ++ rest))) t rest

theorem ReadsBack.leaves {t : JsonTree} (h : ReadsBack t) (depth : Nat) {blanks : List Char}
    (hblanks : AllBlank blanks) (hrest : EndsNumber rest) :
    Leaves (readValue (blanks ++ ((t.write depth).toList ++ rest))) t rest := by
  obtain ⟨c, cs, htext, -, -, hread⟩ := h depth
  rw [htext]
  exact hread blanks rest hblanks hrest

/-- Behind a number may stand a line break, a separator or the end of what it is in. -/
theorem endsNumber_append {blanks : List Char} (hblanks : AllBlank blanks) {c : Char}
    (hc : c.isDigit = false ∧ c ≠ '.' ∧ c ≠ 'e' ∧ c ≠ 'E') (rest : List Char) :
    EndsNumber (blanks ++ c :: rest) := by
  intro d hd
  cases blanks with
  | nil =>
    cases hd
    exact hc
  | cons b blanks =>
    have hb := hblanks b List.mem_cons_self
    simp only [isBlank, Bool.or_eq_true, decide_eq_true_eq] at hb
    cases hd
    rcases hb with ((rfl | rfl) | rfl) | rfl <;> decide

/-- Behind an item or an entry the text of those after it goes on, or what it is in ends. -/
theorem endsNumber_items (items : JsonItems) (depth : Nat) {blanks : List Char}
    (hblanks : AllBlank blanks) (rest : List Char) :
    EndsNumber ((items.write depth ",").toList ++ (blanks ++ ']' :: rest)) := by
  cases items with
  | nil => exact endsNumber_append hblanks (by decide) rest
  | stop e => exact endsNumber_append hblanks (by decide) rest
  | cons item items =>
    simp only [JsonItems.write, String.toList_append, List.append_assoc]
    exact endsNumber_append allBlank_nil (by decide) _

theorem endsNumber_entries (entries : JsonEntries) (depth : Nat) {blanks : List Char}
    (hblanks : AllBlank blanks) (rest : List Char) :
    EndsNumber ((entries.write depth ",").toList ++ (blanks ++ '\x7d' :: rest)) := by
  cases entries with
  | nil => exact endsNumber_append hblanks (by decide) rest
  | stop flaw => exact endsNumber_append hblanks (by decide) rest
  | cons key value entries =>
    simp only [JsonEntries.write, String.toList_append, List.append_assoc]
    exact endsNumber_append allBlank_nil (by decide) _

/-- The text of items behind another one is read as them. -/
def ItemsReadBack (items : JsonItems) : Prop :=
  ∀ depth blanks rest, AllBlank blanks →
    Leaves (readMoreItems ((items.write depth ",").toList ++ (blanks ++ ']' :: rest))) items rest

/-- The text of entries behind another one is read as them. -/
def EntriesReadBack (entries : JsonEntries) : Prop :=
  ∀ depth blanks rest, AllBlank blanks →
    Leaves (readMoreEntries ((entries.write depth ",").toList ++ (blanks ++ '\x7d' :: rest))) entries rest

theorem ItemsReadBack.cons {item : JsonTree} {items : JsonItems} (hitem : ReadsBack item)
    (hitems : ItemsReadBack items) (depth : Nat) {blanks : List Char} (hblanks : AllBlank blanks)
    (rest : List Char) :
    Leaves (readItem ((lineBreak depth).toList ++ ((item.write depth).toList ++
      ((items.write depth ",").toList ++ (blanks ++ ']' :: rest))))) (.cons item items) rest :=
  leaves_item (hitem.leaves depth (allBlank_lineBreak depth) (endsNumber_items items depth hblanks rest))
    (hitems depth blanks rest hblanks)

theorem EntriesReadBack.cons (name : String) {value : JsonTree} {entries : JsonEntries}
    (hvalue : ReadsBack value) (hentries : EntriesReadBack entries) (depth : Nat) {blanks : List Char}
    (hblanks : AllBlank blanks) (rest : List Char) :
    Leaves (readEntry ((lineBreak depth).toList ++ '"' :: (name.toList.flatMap writeChar ++
      '"' :: ':' :: ([' '] ++ ((value.write depth).toList ++
        ((entries.write depth ",").toList ++ (blanks ++ '\x7d' :: rest)))))))
      (.cons (.ok name) value entries) rest :=
  leaves_entry (allBlank_lineBreak depth)
    (hvalue.leaves depth (by simp [AllBlank, isBlank]) (endsNumber_entries entries depth hblanks rest))
    (hentries depth blanks rest hblanks)

/-- Items behind another one begin with a separator. -/
theorem ItemsReadBack.further {item : JsonTree} {items : JsonItems} (hitem : ReadsBack item)
    (hitems : ItemsReadBack items) : ItemsReadBack (.cons item items) := by
  intro depth blanks rest hblanks
  have htext : ((JsonItems.cons item items).write depth ",").toList ++ (blanks ++ ']' :: rest) =
      ',' :: ((lineBreak depth).toList ++ ((item.write depth).toList ++
        ((items.write depth ",").toList ++ (blanks ++ ']' :: rest)))) := by
    simp [JsonItems.write]
  rw [htext]
  exact leaves_moreItems (hitems.cons hitem depth hblanks rest)

theorem EntriesReadBack.further {name : String} {value : JsonTree} {entries : JsonEntries}
    (hvalue : ReadsBack value) (hentries : EntriesReadBack entries) :
    EntriesReadBack (.cons (.ok name) value entries) := by
  intro depth blanks rest hblanks
  have htext : ((JsonEntries.cons (.ok name) value entries).write depth ",").toList ++
      (blanks ++ '\x7d' :: rest) = ',' :: ((lineBreak depth).toList ++ '"' ::
        (name.toList.flatMap writeChar ++ '"' :: ':' :: ([' '] ++ ((value.write depth).toList ++
          ((entries.write depth ",").toList ++ (blanks ++ '\x7d' :: rest)))))) := by
    simp [JsonEntries.write, toList_writeText]
  rw [htext]
  exact leaves_moreEntries (hentries.cons _ hvalue depth hblanks rest)

theorem ReadsBack.string (s : String) : ReadsBack (.string s) := by
  refine fun depth => ⟨'"', s.toList.flatMap writeChar ++ ['"'], toList_writeText s, by decide,
    by decide, fun blanks rest hblanks _ => ?_⟩
  rw [List.append_assoc]
  exact leaves_string hblanks s rest

theorem ReadsBack.number {n : JsonNumber} (hn : n.Proper) : ReadsBack (.number n) := by
  intro depth
  obtain ⟨c, cs, htext, hc, hread⟩ := readNumber_text hn
  obtain ⟨hblank, hbracket, -⟩ := ne_of_number hc
  refine ⟨c, cs, htext, hblank, hbracket, fun blanks rest hblanks hrest => ?_⟩
  obtain ⟨_, hread⟩ := hread rest hrest
  exact leaves_number hblanks hc hread

theorem ReadsBack.emptyArray : ReadsBack (.array .nil) := by
  refine fun depth => ⟨'[', [']'], by simp [JsonTree.write], by decide, by decide,
    fun blanks rest hblanks _ => leaves_array hblanks ?_⟩
  obtain ⟨hlt, hnext⟩ := nextChar?_cons (c := ']') (by decide) rest
  refine ⟨hlt, ?_⟩
  change readFirstItem (']' :: rest) = _
  rw [readFirstItem]
  simp only [hnext, if_true]

theorem ReadsBack.array {item : JsonTree} {items : JsonItems} (hitem : ReadsBack item)
    (hitems : ItemsReadBack items) : ReadsBack (.array (.cons item items)) := by
  intro depth
  have htext : ((JsonTree.array (.cons item items)).write depth).toList =
      '[' :: ((lineBreak (depth + 1)).toList ++ ((item.write (depth + 1)).toList ++
        ((items.write (depth + 1) ",").toList ++ ((lineBreak depth).toList ++ [']'])))) := by
    simp [JsonTree.write, JsonItems.write]
  refine ⟨'[', _, htext, by decide, by decide, fun blanks rest hblanks _ => leaves_array hblanks ?_⟩
  have hread := hitems.cons hitem (depth + 1) (allBlank_lineBreak depth) rest
  obtain ⟨c, cs, hc, hblank, hbracket, -⟩ := hitem (depth + 1)
  rw [List.append_assoc, List.append_assoc, List.append_assoc, List.append_assoc,
    List.singleton_append]
  rw [hc] at hread ⊢
  exact leaves_firstItem (allBlank_lineBreak _) ⟨hblank, hbracket⟩ hread

theorem ReadsBack.emptyObject : ReadsBack (.object .nil) := by
  refine fun depth => ⟨'\x7b', ['\x7d'], by simp [JsonTree.write], by decide, by decide,
    fun blanks rest hblanks _ => leaves_object hblanks ?_⟩
  obtain ⟨hlt, hnext⟩ := nextChar?_cons (c := '\x7d') (by decide) rest
  refine ⟨hlt, ?_⟩
  change readFirstEntry ('\x7d' :: rest) = _
  rw [readFirstEntry]
  simp only [hnext, if_true]

theorem ReadsBack.object {name : String} {value : JsonTree} {entries : JsonEntries}
    (hvalue : ReadsBack value) (hentries : EntriesReadBack entries) :
    ReadsBack (.object (.cons (.ok name) value entries)) := by
  intro depth
  have htext : ((JsonTree.object (.cons (.ok name) value entries)).write depth).toList =
      '\x7b' :: ((lineBreak (depth + 1)).toList ++ '"' :: (name.toList.flatMap writeChar ++
        '"' :: ':' :: ([' '] ++ ((value.write (depth + 1)).toList ++
          ((entries.write (depth + 1) ",").toList ++ ((lineBreak depth).toList ++ ['\x7d'])))))) := by
    simp [JsonTree.write, JsonEntries.write, toList_writeText]
  refine ⟨'\x7b', _, htext, by decide, by decide, fun blanks rest hblanks _ => leaves_object hblanks ?_⟩
  have hread := hentries.cons name hvalue (depth + 1) (allBlank_lineBreak depth) rest
  rw [List.append_assoc, List.cons_append, List.append_assoc, List.cons_append, List.cons_append,
    List.append_assoc, List.append_assoc, List.append_assoc, List.append_assoc, List.singleton_append]
  exact leaves_firstEntry (allBlank_lineBreak _) hread

mutual

/-- The text of a tree is read as the tree. -/
theorem readsBack : ∀ t : JsonTree, t.Writable → ReadsBack t
  | .null, _ => fun depth => ⟨'n', "ull".toList, by simp [JsonTree.write], by decide,
      by decide, fun blanks rest hblanks _ => leaves_word hblanks (.inl ⟨rfl, rfl, rfl⟩) rest⟩
  | .bool true, _ => fun depth => ⟨'t', "rue".toList, by simp [JsonTree.write], by decide,
      by decide, fun blanks rest hblanks _ => leaves_word hblanks (.inr (.inl ⟨rfl, rfl, rfl⟩)) rest⟩
  | .bool false, _ => fun depth => ⟨'f', "alse".toList, by simp [JsonTree.write], by decide,
      by decide, fun blanks rest hblanks _ => leaves_word hblanks (.inr (.inr ⟨rfl, rfl, rfl⟩)) rest⟩
  | .string s, _ => .string s
  | .number n, h => .number (h.proper n List.mem_cons_self)
  | .array .nil, _ => .emptyArray
  | .array (.stop e), h => h.whole.elim
  | .array (.cons item items), h => by
      obtain ⟨hitem, hitems⟩ := JsonItems.Writable.of_cons ⟨h.whole, h.proper⟩
      exact .array (readsBack item hitem) (readsBack_items items hitems)
  | .object .nil, _ => .emptyObject
  | .object (.stop flaw), h => h.whole.elim
  | .object (.cons key value entries), h => by
      obtain ⟨name, rfl, hvalue, hentries⟩ := JsonEntries.Writable.of_cons ⟨h.whole, h.proper⟩
      exact .object (readsBack value hvalue) (readsBack_entries entries hentries)
  | .unreadable e, h => h.whole.elim
  | .broken flaw, h => h.whole.elim

theorem readsBack_items : ∀ items : JsonItems, items.Writable → ItemsReadBack items
  | .nil, _ => fun depth blanks rest hblanks => leaves_noMoreItems hblanks rest
  | .stop e, h => h.whole.elim
  | .cons item items, h => by
      obtain ⟨hitem, hitems⟩ := h.of_cons
      exact .further (readsBack item hitem) (readsBack_items items hitems)

theorem readsBack_entries : ∀ entries : JsonEntries, entries.Writable → EntriesReadBack entries
  | .nil, _ => fun depth blanks rest hblanks => leaves_noMoreEntries hblanks rest
  | .stop flaw, h => h.whole.elim
  | .cons key value entries, h => by
      obtain ⟨name, rfl, hvalue, hentries⟩ := h.of_cons
      exact .further (readsBack value hvalue) (readsBack_entries entries hentries)

end

/-! ## The numbers that are read -/

theorem proper_wordNode {letters : String} {value : JsonTree} (hvalue : value.numbers = [])
    (r : Rest cs) : ∀ n ∈ (wordNode letters value r).1.numbers, n.Proper := by
  unfold wordNode
  split <;> simp [hvalue, JsonTree.numbers]

theorem proper_textNode (r : Rest cs) : ∀ n ∈ (textNode r).1.numbers, n.Proper := by
  unfold textNode
  split <;> simp [JsonTree.numbers]

theorem proper_numberNode (c : Char) (r : Rest cs) :
    ∀ n ∈ (numberNode c r).1.numbers, n.Proper := by
  unfold numberNode
  split
  · simp [JsonTree.numbers]
  · rename_i value left hread
    cases value with
    | error e => simp [JsonTree.numbers]
    | ok m =>
      intro n hn
      rw [List.mem_singleton.mp hn]
      exact proper_of_readNumber hread

mutual

theorem proper_readValue (cs : List Char) : ∀ n ∈ (readValue cs).1.numbers, n.Proper := by
  rw [readValue]
  split
  · simp [JsonTree.numbers]
  · rename_i c r hnext
    have := r.2
    dsimp only
    split
    · exact proper_textNode r
    split
    · exact proper_readFirstItem r.1
    split
    · exact proper_readFirstEntry r.1
    split
    · exact proper_numberNode c r
    split
    · exact proper_wordNode rfl r
    split
    · exact proper_wordNode rfl r
    split
    · exact proper_wordNode rfl r
    · simp [JsonTree.numbers]
termination_by (cs.length, 0)

theorem proper_readFirstItem (cs : List Char) :
    ∀ n ∈ (readFirstItem cs).1.numbers, n.Proper := by
  rw [readFirstItem]
  split
  · simp [JsonItems.numbers]
  · split
    · simp [JsonItems.numbers]
    · exact proper_readItem cs
termination_by (cs.length, 2)

theorem proper_readItem (cs : List Char) : ∀ n ∈ (readItem cs).1.numbers, n.Proper := by
  have hvalue := proper_readValue cs
  rw [readItem]
  split
  · rename_i t hread
    rw [hread] at hvalue
    simpa [JsonItems.numbers] using hvalue
  · rename_i t r hread
    have := r.2
    rw [hread] at hvalue
    intro n hn
    exact (List.mem_append.mp hn).elim (hvalue n) (proper_readMoreItems r.1 n)
termination_by (cs.length, 1)

theorem proper_readMoreItems (cs : List Char) :
    ∀ n ∈ (readMoreItems cs).1.numbers, n.Proper := by
  rw [readMoreItems]
  split
  · simp [JsonItems.numbers]
  · rename_i c r hnext
    have := r.2
    dsimp only
    split
    · simp [JsonItems.numbers]
    split
    · exact proper_readItem r.1
    · simp [JsonItems.numbers]
termination_by (cs.length, 2)

theorem proper_readFirstEntry (cs : List Char) :
    ∀ n ∈ (readFirstEntry cs).1.numbers, n.Proper := by
  rw [readFirstEntry]
  split
  · simp [JsonEntries.numbers]
  · split
    · simp [JsonEntries.numbers]
    · exact proper_readEntry cs
termination_by (cs.length, 2)

theorem proper_readEntry (cs : List Char) : ∀ n ∈ (readEntry cs).1.numbers, n.Proper := by
  rw [readEntry]
  split
  · simp [JsonEntries.numbers]
  · rename_i c r hnext
    have := r.2
    dsimp only
    split
    · split
      · simp [JsonEntries.numbers]
      · simp [JsonEntries.numbers]
      · rename_i key more htext
        have := more.2
        exact proper_readKeyed key more.1
    · simp [JsonEntries.numbers]
termination_by (cs.length, 1)

theorem proper_readKeyed (key : Except ReadError String) (cs : List Char) :
    ∀ n ∈ (readKeyed key cs).1.numbers, n.Proper := by
  rw [readKeyed]
  split
  · simp [JsonEntries.numbers, JsonTree.numbers]
  · rename_i c r hnext
    have := r.2
    have hvalue := proper_readValue r.1
    dsimp only
    split
    · split
      · rename_i t hread
        rw [hread] at hvalue
        simpa [JsonEntries.numbers] using hvalue
      · rename_i t more hread
        have := more.2
        rw [hread] at hvalue
        intro n hn
        exact (List.mem_append.mp hn).elim (hvalue n) (proper_readMoreEntries more.1 n)
    · simp [JsonEntries.numbers, JsonTree.numbers]
termination_by (cs.length, 2)

theorem proper_readMoreEntries (cs : List Char) :
    ∀ n ∈ (readMoreEntries cs).1.numbers, n.Proper := by
  rw [readMoreEntries]
  split
  · simp [JsonEntries.numbers]
  · rename_i c r hnext
    have := r.2
    dsimp only
    split
    · simp [JsonEntries.numbers]
    split
    · exact proper_readEntry r.1
    · simp [JsonEntries.numbers]
termination_by (cs.length, 2)

end

end Json

/-- **The text of a tree is read as that tree**, and nothing follows it. -/
theorem JsonTree.ofText_text {t : JsonTree} (h : t.Writable) : JsonTree.ofText t.text = (t, false) := by
  have hend : Json.EndsNumber [] := nofun
  have hread := (Json.readsBack t h).leaves 0 Json.allBlank_nil hend
  rw [List.nil_append, List.append_nil] at hread
  obtain ⟨_, hread⟩ := hread
  simp only [JsonTree.ofText, JsonTree.text, hread]
  rfl

/-- **The numbers of a tree that was read are proper**, whether or not the text is well formed. -/
theorem JsonTree.hasProperNumbers_ofText (text : String) :
    (JsonTree.ofText text).1.HasProperNumbers := by
  have hread := Json.proper_readValue text.toList
  unfold JsonTree.ofText
  split <;> rename_i heq <;> rw [heq] at hread <;> exact hread

end Formula
