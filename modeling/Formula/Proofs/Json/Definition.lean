import Formula.Definition
import Formula.Proofs.Json.Writing
import Formula.Proofs.Program.Reading

/-!
# Definitions read back

A definition that was read is written as a text that is read as the same definition. What is written
differs from what was read: names of types become canonical, an integer beyond 64 bits becomes a
floating-point number, and defaults that are null are left out. None of this is lost on reading.

## Main definitions

* `Definition.Writable`: the definitions that survive being written

## Main results

* `Schema.Keeps.decode`: what every field keeps holds of a decoded record
* `Definition.ofText_text`: the text of a writable definition is read as that definition
* `Definition.writable_of_ofText`: a definition that was read is writable
* `Definition.ofText_text_of_ofText`: a definition that was read survives being written
-/

namespace Formula

/-! ## Decoding -/

section Decoding

variable {α σ : Type}

theorem decodeList_map {decode : JsonTree → Decoded α} {encode : α → JsonTree} {as : List α}
    (h : ∀ a ∈ as, decode (encode a) = .ok a) :
    decodeList decode (.array (.ofList (as.map encode))) = .ok as := by
  change decodeItems decode (.ofList (as.map encode)) = .ok as
  induction as with
  | nil => rfl
  | cons a as ih =>
    simp only [List.map_cons, JsonItems.ofList, decodeItems, h a List.mem_cons_self,
      ih fun b hb => h b (List.mem_cons_of_mem a hb)]

/-- A value of the wrong type is not decoded. -/
theorem wrongType_ne_ok (t : JsonTree) (expected : String) (a : α) :
    wrongType t expected ≠ .ok a := by
  unfold wrongType
  split <;> simp

theorem JsonItems.hasProperNumbers_cons {item : JsonTree} {items : JsonItems}
    (h : (JsonTree.array (.cons item items)).HasProperNumbers) :
    item.HasProperNumbers ∧ (JsonTree.array items).HasProperNumbers :=
  ⟨fun n hn => h n (List.mem_append_left _ hn), fun n hn => h n (List.mem_append_right _ hn)⟩

theorem JsonEntries.hasProperNumbers_cons {key : Except ReadError String} {value : JsonTree}
    {entries : JsonEntries} (h : (JsonTree.object (.cons key value entries)).HasProperNumbers) :
    value.HasProperNumbers ∧ (JsonTree.object entries).HasProperNumbers :=
  ⟨fun n hn => h n (List.mem_append_left _ hn), fun n hn => h n (List.mem_append_right _ hn)⟩

/-- What holds of every value that is decoded holds of the values of a list. -/
theorem forall_of_decodeItems {decode : JsonTree → Decoded α} {P : α → Prop}
    (hdecode : ∀ t a, t.HasProperNumbers → decode t = .ok a → P a) :
    ∀ (items : JsonItems) (as : List α), (JsonTree.array items).HasProperNumbers →
      decodeItems decode items = .ok as → ∀ a ∈ as, P a
  | .nil, as, _, h => by
    cases h
    simp
  | .stop e, as, _, h => by cases h
  | .cons item items, as, ht, h => by
    obtain ⟨hitem, hitems⟩ := JsonItems.hasProperNumbers_cons ht
    simp only [decodeItems] at h
    split at h
    · cases h
    · rename_i a ha
      split at h
      · cases h
      · rename_i bs hbs
        cases h
        exact List.forall_mem_cons.mpr ⟨hdecode item a hitem ha,
          forall_of_decodeItems hdecode items bs hitems hbs⟩

theorem forall_of_decodeList {decode : JsonTree → Decoded α} {P : α → Prop} {t : JsonTree}
    {as : List α} (ht : t.HasProperNumbers)
    (hdecode : ∀ t a, t.HasProperNumbers → decode t = .ok a → P a)
    (h : decodeList decode t = .ok as) : ∀ a ∈ as, P a := by
  unfold decodeList at h
  split at h
  · exact forall_of_decodeItems hdecode _ as ht h
  · exact absurd h (wrongType_ne_ok _ _ _)

namespace Schema

variable {s : Schema σ} {P : σ → Prop}

/-- Reading any field of a record keeps what is said of the record. -/
def Keeps (s : Schema σ) (P : σ → Prop) : Prop :=
  ∀ f ∈ s.fields, ∀ r t r', t.HasProperNumbers → P r → f.read r t = .ok r' → P r'

theorem Keeps.decodeEntries (hs : s.Keeps P) : ∀ (entries : JsonEntries) (seen : List String) (r r' : σ),
    (JsonTree.object entries).HasProperNumbers → P r → s.decodeEntries seen r entries = .ok r' → P r'
  | .nil, seen, r, r', _, hr, h => by
    simp only [Schema.decodeEntries] at h
    split at h
    · cases h
    · cases h
      exact hr
  | .stop flaw, _, _, _, _, _, h => by cases h
  | .cons (.error e) _ _, _, _, _, _, _, h => by cases h
  | .cons (.ok name) value entries, seen, r, r', ht, hr, h => by
    obtain ⟨hvalue, hentries⟩ := JsonEntries.hasProperNumbers_cons ht
    simp only [Schema.decodeEntries] at h
    split at h
    · split at h
      · split at h
        · cases h
        · exact hs.decodeEntries entries seen r r' hentries hr h
      · cases h
    · rename_i f hf
      split at h
      · cases h
      · split at h
        · cases h
        · rename_i next hnext
          exact hs.decodeEntries entries _ next r' hentries
            (hs f (List.mem_of_find?_eq_some hf) r value next hvalue hr hnext) h

theorem Keeps.decodeItems (hs : s.Keeps P) : ∀ (fields : List (Field σ)), fields ⊆ s.fields →
    ∀ (items : JsonItems) (index : Nat) (r r' : σ), (JsonTree.array items).HasProperNumbers → P r →
      s.decodeItems index r fields items = .ok r' → P r'
  | [], _, items, index, r, r', _, hr, h => by
    cases items with
    | nil =>
      cases h
      exact hr
    | stop e => cases h
    | cons item items => cases h
  | f :: fields, hfields, items, index, r, r', ht, hr, h => by
    obtain ⟨hf, hrest⟩ := List.cons_subset.mp hfields
    cases items with
    | nil =>
      simp only [Schema.decodeItems] at h
      split at h
      · cases h
      · exact hs.decodeItems fields hrest .nil (index + 1) r r' ht hr h
    | stop e => cases h
    | cons item items =>
      obtain ⟨hitem, hitems⟩ := JsonItems.hasProperNumbers_cons ht
      simp only [Schema.decodeItems] at h
      split at h
      · cases h
      · rename_i next hnext
        exact hs.decodeItems fields hrest items (index + 1) next r' hitems
          (hs f hf r item next hitem hr hnext) h

/-- **What every field keeps holds of a decoded record**, if it holds before any field was read. -/
theorem Keeps.decode (hs : s.Keeps P) (hblank : P s.blank) {t : JsonTree} {r : σ}
    (ht : t.HasProperNumbers) (h : s.decode t = .ok r) : P r := by
  unfold Schema.decode at h
  split at h
  · exact hs.decodeEntries _ [] s.blank r ht hblank h
  · exact hs.decodeItems s.fields (List.Subset.refl _) _ 0 s.blank r ht hblank h
  · exact absurd h (wrongType_ne_ok _ _ _)

end Schema

end Decoding

namespace Scalar

/-- The values that have a tree of their own. -/
def Writable : Scalar → Prop
  | float x => Decimal.isFinite x = true
  | int _ | bool _ | string _ => True

theorem decode_tree {v : Scalar} (hv : v.Writable) : decode v.tree = .ok v := by
  cases v with
  | int n =>
    have hlow := n.le_toInt
    have hhigh := n.toInt_lt
    have hint : int? n.toInt = some (.int n) := by
      have hfits : -(Decimal.intBound : Int) ≤ n.toInt ∧ n.toInt < Decimal.intBound := by
        simp only [Decimal.intBound]
        omega
      rw [int?, if_pos hfits, Int64.ofInt_toInt]
    simp only [tree, decode, hint, Option.getD_some]
  | float x =>
    simp only [tree, show Decimal.isFinite x = true from hv, if_true, decode]
  | bool b => rfl
  | string s => rfl

theorem writable_of_decode {t : JsonTree} {v : Scalar} (ht : t.HasProperNumbers)
    (h : decode t = .ok v) : v.Writable := by
  unfold decode at h
  split at h
  · cases h; trivial
  · cases h; trivial
  · rename_i n
    cases h
    obtain ⟨hlow, hhigh⟩ := ht (.integer n) List.mem_cons_self
    unfold int?
    split
    · trivial
    · refine Decimal.isFinite_floatOfDecimal ?_ _
      simp only [Decimal.intBound] at *
      omega
  · rename_i x
    cases h
    exact ht (.float x) List.mem_cons_self
  · split at h <;> cases h

theorem decodeOption_tree {v : Scalar} (hv : v.Writable) :
    decodeOption decode v.tree = .ok (some v) := by
  have hdecode := decode_tree hv
  cases v with
  | float x =>
    simp only [tree, show Decimal.isFinite x = true from hv, if_true] at hdecode ⊢
    rw [decodeOption, hdecode]
    · rfl
    · simp
  | int n =>
    rw [tree] at hdecode ⊢
    rw [decodeOption, hdecode]
    · rfl
    · simp
  | bool b => rfl
  | string s => rfl

end Scalar

/-! ## The parts of a definition -/

/-- The variables that survive being written. -/
def Variable.Writable (v : Variable) : Prop :=
  ∀ value ∈ v.default, value.Writable

theorem ScalarType.decode_name (t : ScalarType) : ScalarType.decode (.string t.name) = .ok t := by
  simp only [ScalarType.decode, decodeString, ScalarType.ofName?_name]

namespace Variable

theorem decode_tree {v : Variable} (hv : v.Writable) : schema.decode v.tree = .ok v := by
  obtain ⟨name, type, value⟩ := v
  cases value with
  | none =>
    simp [tree, schema, JsonEntries.ofList, Schema.decode, Schema.decodeEntries, decodeString,
      ScalarType.decode_name, Except.map]
  | some value =>
    have hvalue := Scalar.decodeOption_tree (hv value rfl)
    simp [tree, schema, JsonEntries.ofList, Schema.decode, Schema.decodeEntries, decodeString,
      ScalarType.decode_name, hvalue, Except.map]

end Variable

theorem Helper.decode_tree (h : Helper) : Helper.schema.decode h.tree = .ok h := by
  simp [tree, schema, JsonEntries.ofList, Schema.decode, Schema.decodeEntries, decodeString, Except.map]

namespace Definition

/-- **The definitions that survive being written**: their kind has its own code, and their defaults
have a tree. -/
structure Writable (d : Definition) : Prop where
  kind : EvaluationKind.ofCode d.kind.code = d.kind
  vars : ∀ v ∈ d.vars, v.Writable

theorem decodeByte_code (kind : EvaluationKind) :
    decodeByte (.number (.integer kind.code.toNat)) = .ok kind.code := by
  have hlt := kind.code.toNat_lt
  simp only [decodeByte, Int.toNat_natCast, UInt8.ofNat_toNat]
  rw [if_pos (by omega)]

theorem decode_tree {d : Definition} (hd : d.Writable) : schema.decode d.tree = .ok d := by
  have hkind := hd.kind
  have himports : decodeList (decodeString "a string")
      (.array (.ofList (d.imports.map .string))) = .ok d.imports :=
    decodeList_map fun s _ => rfl
  have hvars : decodeList Variable.schema.decode
      (.array (.ofList (d.vars.map Variable.tree))) = .ok d.vars :=
    decodeList_map fun v hv => Variable.decode_tree (hd.vars v hv)
  have hhelpers : decodeList Helper.schema.decode
      (.array (.ofList (d.helpers.map Helper.tree))) = .ok d.helpers :=
    decodeList_map fun h _ => Helper.decode_tree h
  obtain ⟨name, kind, imports, vars, helpers, formula, path⟩ := d
  cases path with
  | none =>
    simp [tree, schema, JsonEntries.ofList, Schema.decode, Schema.decodeEntries, decodeString,
      decodeByte_code, himports, hvars, hhelpers, hkind, Except.map]
  | some path =>
    simp [tree, schema, JsonEntries.ofList, Schema.decode, Schema.decodeEntries, decodeString,
      decodeByte_code, decodeOption, himports, hvars, hhelpers, hkind, Except.map]

end Definition

/-! ## The tree of a definition -/

theorem JsonTree.writable_array : ∀ {items : List JsonTree}, (∀ t ∈ items, t.Writable) →
    (JsonTree.array (.ofList items)).Writable
  | [], _ => ⟨trivial, by simp [HasProperNumbers, numbers, JsonItems.ofList, JsonItems.numbers]⟩
  | t :: ts, h => by
    obtain ⟨ht, hts⟩ := List.forall_mem_cons.mp h
    have hrest := writable_array hts
    exact ⟨⟨ht.whole, hrest.whole⟩, fun n hn =>
      (List.mem_append.mp hn).elim (ht.proper n) (hrest.proper n)⟩

theorem JsonTree.writable_object : ∀ {entries : List (String × JsonTree)},
    (∀ e ∈ entries, e.2.Writable) → (JsonTree.object (.ofList entries)).Writable
  | [], _ => ⟨trivial, by simp [HasProperNumbers, numbers, JsonEntries.ofList, JsonEntries.numbers]⟩
  | e :: es, h => by
    obtain ⟨he, hes⟩ := List.forall_mem_cons.mp h
    have hrest := writable_object hes
    exact ⟨⟨he.whole, hrest.whole⟩, fun n hn =>
      (List.mem_append.mp hn).elim (he.proper n) (hrest.proper n)⟩

theorem JsonTree.writable_string (s : String) : (JsonTree.string s).Writable :=
  ⟨trivial, by simp [HasProperNumbers, numbers]⟩

theorem JsonTree.writable_number {n : JsonNumber} (hn : n.Proper) : (JsonTree.number n).Writable :=
  ⟨trivial, by simpa [HasProperNumbers, numbers] using hn⟩

theorem Scalar.writable_tree {v : Scalar} (hv : v.Writable) : v.tree.Writable := by
  cases v with
  | int n =>
    have hlow := n.le_toInt
    have hhigh := n.toInt_lt
    refine JsonTree.writable_number ?_
    simp only [JsonNumber.Proper, Decimal.intBound]
    omega
  | float x =>
    rw [tree, if_pos (show Decimal.isFinite x = true from hv)]
    exact JsonTree.writable_number hv
  | bool b => exact ⟨trivial, by simp [tree, JsonTree.HasProperNumbers, JsonTree.numbers]⟩
  | string s => exact JsonTree.writable_string s

theorem Variable.writable_tree {v : Variable} (hv : v.Writable) : v.tree.Writable := by
  obtain ⟨name, type, value⟩ := v
  refine JsonTree.writable_object ?_
  cases value with
  | none => simp [JsonTree.writable_string]
  | some value => simp [JsonTree.writable_string, Scalar.writable_tree (hv value rfl)]

theorem Helper.writable_tree (h : Helper) : h.tree.Writable :=
  JsonTree.writable_object (by simp [JsonTree.writable_string])

namespace Definition

theorem writable_tree {d : Definition} (hd : d.Writable) : d.tree.Writable := by
  have hkind : (JsonTree.number (.integer d.kind.code.toNat)).Writable := by
    have hlt := d.kind.code.toNat_lt
    refine JsonTree.writable_number ?_
    simp only [JsonNumber.Proper, Decimal.intBound]
    omega
  have himports : (JsonTree.array (.ofList (d.imports.map .string))).Writable :=
    JsonTree.writable_array (List.forall_mem_map.mpr fun s _ => JsonTree.writable_string s)
  have hvars : (JsonTree.array (.ofList (d.vars.map Variable.tree))).Writable :=
    JsonTree.writable_array (List.forall_mem_map.mpr fun v hv => Variable.writable_tree (hd.vars v hv))
  have hhelpers : (JsonTree.array (.ofList (d.helpers.map Helper.tree))).Writable :=
    JsonTree.writable_array (List.forall_mem_map.mpr fun h _ => Helper.writable_tree h)
  refine JsonTree.writable_object ?_
  cases d.buildPath <;> simp [JsonTree.writable_string, hkind, himports, hvars, hhelpers]

/-- **The text of a writable definition is read as that definition.** -/
theorem ofText_text {d : Definition} (hd : d.Writable) : ofText d.text = .ok d := by
  simp only [ofText, text, JsonTree.ofText_text (writable_tree hd), decode_tree hd, Bool.false_eq_true,
    if_false]

end Definition

/-! ## The definitions that are read -/

/-- What is read into a field comes from a value that was decoded. -/
theorem exists_of_map_eq_ok {α σ : Type} {read : Decoded α} {put : α → σ} {r : σ}
    (h : read.map put = .ok r) : ∃ a, read = .ok a ∧ r = put a := by
  cases read with
  | error e => cases h
  | ok a =>
    cases h
    exact ⟨a, rfl, rfl⟩

theorem Variable.keeps_writable : Variable.schema.Keeps Variable.Writable := by
  intro f hf v t v' ht hv h
  simp only [schema, List.mem_cons, List.not_mem_nil, or_false] at hf
  rcases hf with rfl | rfl | rfl
  · obtain ⟨name, -, rfl⟩ := exists_of_map_eq_ok h
    exact hv
  · obtain ⟨type, -, rfl⟩ := exists_of_map_eq_ok h
    exact hv
  · obtain ⟨value, hvalue, rfl⟩ := exists_of_map_eq_ok h
    intro w hw
    unfold decodeOption at hvalue
    split at hvalue
    · cases hvalue
      cases hw
    · obtain ⟨x, hx, rfl⟩ := exists_of_map_eq_ok hvalue
      cases hw
      exact Scalar.writable_of_decode ht hx

namespace Definition

theorem keeps_writable : schema.Keeps Writable := by
  intro f hf d t d' ht hd h
  simp only [schema, List.mem_cons, List.not_mem_nil, or_false] at hf
  rcases hf with rfl | rfl | rfl | rfl | rfl | rfl | rfl
  · obtain ⟨name, -, rfl⟩ := exists_of_map_eq_ok h
    exact ⟨hd.kind, hd.vars⟩
  · obtain ⟨code, -, rfl⟩ := exists_of_map_eq_ok h
    exact ⟨by rw [EvaluationKind.code_ofCode], hd.vars⟩
  · obtain ⟨imports, -, rfl⟩ := exists_of_map_eq_ok h
    exact ⟨hd.kind, hd.vars⟩
  · obtain ⟨vars, hvars, rfl⟩ := exists_of_map_eq_ok h
    exact ⟨hd.kind, forall_of_decodeList ht (fun t v ht hv =>
      Variable.keeps_writable.decode (by simp [Variable.Writable, Variable.schema]) ht hv) hvars⟩
  · obtain ⟨helpers, -, rfl⟩ := exists_of_map_eq_ok h
    exact ⟨hd.kind, hd.vars⟩
  · obtain ⟨formula, -, rfl⟩ := exists_of_map_eq_ok h
    exact ⟨hd.kind, hd.vars⟩
  · obtain ⟨path, -, rfl⟩ := exists_of_map_eq_ok h
    exact ⟨hd.kind, hd.vars⟩

/-- **A definition that was read is writable.** -/
theorem writable_of_ofText {text : String} {d : Definition} (h : ofText text = .ok d) : d.Writable := by
  have hproper := JsonTree.hasProperNumbers_ofText text
  unfold ofText at h
  obtain ⟨tree, isFollowed⟩ := JsonTree.ofText text
  simp only at h
  split at h
  · cases h
  · rename_i hd
    split at h
    · cases h
    · cases h
      exact keeps_writable.decode ⟨rfl, by simp [schema]⟩ hproper hd

/-- **Definitions survive being written.** A definition that was read from any text is written as a
text that is read as the same definition, which makes the same declarations. -/
theorem ofText_text_of_ofText {source : String} {d : Definition} (h : ofText source = .ok d) :
    ofText d.text = .ok d ∧ (ofText d.text).map registry = .ok d.registry := by
  have hread := ofText_text (writable_of_ofText h)
  refine ⟨hread, ?_⟩
  rw [hread]
  rfl

/-- A definition with an alias of a type, an integer beyond 64 bits and a kind without a name. -/
def aliasTree : JsonTree :=
  .array (.ofList [.string "sum", .number (.integer 7), .array .nil,
    .array (.ofList [.array (.ofList [.string "A", .string " f64 ",
      .number (.integer 9223372036854775808)])])])

/-- An alias of a type, an integer beyond 64 bits and a kind without a name survive being written. -/
theorem ofText_text_of_alias :
    aliasTree.text = "[\n  \"sum\",\n  7,\n  [],\n  [\n    [\n      \"A\",\n      \" f64 \",\n" ++
        "      9223372036854775808\n    ]\n  ]\n]" ∧
      ∃ d, ofText aliasTree.text = .ok d ∧ d.vars.map (·.type) = [.float] ∧ ofText d.text = .ok d := by
  have hwritable : aliasTree.Writable := by
    refine ⟨?_, ?_⟩
    · simp [aliasTree, JsonTree.IsWhole, JsonItems.IsWhole, JsonItems.ofList]
    · simp [aliasTree, JsonTree.HasProperNumbers, JsonTree.numbers, JsonItems.numbers, JsonItems.ofList,
        JsonNumber.Proper, Decimal.intBound]
  obtain ⟨d, hd, htypes⟩ := Except.exists_of_any (x := schema.decode aliasTree)
    (f := fun d => d.vars.map (·.type) == [.float]) (by decide +kernel)
  have hread : ofText aliasTree.text = .ok d := by
    simp only [ofText, JsonTree.ofText_text hwritable, hd, Bool.false_eq_true, if_false]
  exact ⟨by decide +kernel, d, hread, beq_iff_eq.mp htypes, (ofText_text_of_ofText hread).1⟩

end Definition

end Formula
