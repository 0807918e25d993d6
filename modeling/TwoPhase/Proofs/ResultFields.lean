import TwoPhase.Report.Result

/-!
# Results and their fields

A result is the collection of its fields, whatever order they are set in: `Result.foldl_withField`. Both the
binary and the text form write a result field by field, and leave out those that are empty or zero.
-/

namespace TwoPhase

namespace Result

theorem ext_fields {a b : Result} (htext : ∀ t, a.text t = b.text t) (hint : ∀ i, a.int i = b.int i) :
    a = b := by
  rw [Result.mk.injEq]
  exact ⟨htext .path, hint .line, hint .column, htext .message, htext .ruleset, htext .ruleId,
    hint .severity, htext .id, htext .name, htext .baseClass, htext .verdict⟩

theorem text_setText (r : Result) (t t' : TextField) (b : Bytes) :
    (r.setText t b).text t' = if t = t' then b else r.text t' := by
  cases t <;> cases t' <;> rfl

theorem int_setText (r : Result) (t : TextField) (b : Bytes) (i : IntField) :
    (r.setText t b).int i = r.int i := by
  cases t <;> cases i <;> rfl

theorem text_setInt (r : Result) (i : IntField) (n : Int32) (t : TextField) :
    (r.setInt i n).text t = r.text t := by
  cases t <;> cases i <;> rfl

theorem int_setInt (r : Result) (i i' : IntField) (n : Int32) :
    (r.setInt i n).int i' = if i = i' then n else r.int i' := by
  cases i <;> cases i' <;> rfl

end Result

namespace Field

/-- The value of a field, which is a text or a number. -/
def value (r : Result) : Field → Bytes ⊕ Int32
  | .text t => .inl (r.text t)
  | .int i => .inr (r.int i)

theorem mem_all (f : Field) : f ∈ Field.all := by
  rcases f with t | i
  · cases t <;> decide
  · cases i <;> decide

theorem nodup_all : Field.all.Nodup := by decide

end Field

theorem Result.isText_iff {r : Result} : r.isText = true ↔ ∀ t, Bytes.isText (r.text t) = true := by
  rw [Result.isText, List.all_eq_true]
  constructor
  · exact fun h t => h (.text t) (Field.mem_all _)
  · rintro h (t | i) _
    · exact h t
    · rfl

namespace Result

/-- `acc` with a field of `r`, if that field would be written at all. -/
def withField (r acc : Result) (f : Field) : Result :=
  match f with
  | .text t => if r.text t = [] then acc else acc.setText t (r.text t)
  | .int i => if r.int i = 0 then acc else acc.setInt i (r.int i)

theorem value_withField_self {r acc : Result} {f : Field}
    (h : f.value acc = f.value {} ∨ f.value acc = f.value r) : f.value (r.withField acc f) = f.value r := by
  rcases f with t | i
  · by_cases hnil : r.text t = []
    · have hempty : Field.value r (.text t) = Field.value {} (.text t) := by
        rw [Field.value, hnil]
        cases t <;> rfl
      rw [withField, if_pos hnil]
      exact h.elim (fun h => h.trans hempty.symm) fun h => h
    · rw [withField, if_neg hnil, Field.value, text_setText, if_pos rfl]
      rfl
  · by_cases hzero : r.int i = 0
    · have hempty : Field.value r (.int i) = Field.value {} (.int i) := by
        rw [Field.value, hzero]
        cases i <;> rfl
      rw [withField, if_pos hzero]
      exact h.elim (fun h => h.trans hempty.symm) fun h => h
    · rw [withField, if_neg hzero, Field.value, int_setInt, if_pos rfl]
      rfl

theorem value_withField_of_ne {r acc : Result} {f g : Field} (h : g ≠ f) :
    f.value (r.withField acc g) = f.value acc := by
  have htext : ∀ t b, .text t ≠ f → f.value (acc.setText t b) = f.value acc := by
    intro t b hne
    cases f with
    | text t' =>
      have htt' : t ≠ t' := fun heq => hne (heq ▸ rfl)
      rw [Field.value, text_setText, if_neg htt', Field.value]
    | int i => rw [Field.value, int_setText, Field.value]
  have hint : ∀ i n, .int i ≠ f → f.value (acc.setInt i n) = f.value acc := by
    intro i n hne
    cases f with
    | text t => rw [Field.value, text_setInt, Field.value]
    | int i' =>
      have hii' : i ≠ i' := fun heq => hne (heq ▸ rfl)
      rw [Field.value, int_setInt, if_neg hii', Field.value]
  unfold withField
  split
  · split
    · rfl
    · exact htext _ _ h
  · split
    · rfl
    · exact hint _ _ h

theorem value_foldl_withField {r acc : Result} {f : Field} {order : List Field}
    (h : f.value acc = f.value r ∨ f.value acc = f.value {} ∧ f ∈ order) :
    f.value (order.foldl r.withField acc) = f.value r := by
  induction order generalizing acc with
  | nil => simpa using h
  | cons g order ih =>
    refine ih ?_
    by_cases hg : g = f
    · subst hg
      exact .inl (value_withField_self (h.symm.imp_left And.left))
    · rw [value_withField_of_ne hg]
      refine h.imp_right fun ⟨hempty, hmem⟩ => ⟨hempty, ?_⟩
      exact (List.mem_cons.mp hmem).resolve_left (Ne.symm hg)

/-- Whatever the order of its fields, they make up a result. -/
theorem foldl_withField (r : Result) {order : List Field} (h : ∀ f, f ∈ order) :
    order.foldl r.withField {} = r := by
  have hvalue : ∀ f : Field, f.value (order.foldl r.withField {}) = f.value r :=
    fun f => value_foldl_withField (.inr ⟨rfl, h f⟩)
  exact ext_fields (fun t => Sum.inl.inj (hvalue (.text t))) fun i => Sum.inr.inj (hvalue (.int i))

end Result

/-- A result with negative numbers, and with texts that hold quotes, control characters and letters beyond
ASCII. -/
def sampleResult : Result where
  path := Bytes.ofString "a.cpp"
  line := -1
  column := -2147483648
  message := Bytes.ofString "名称：x\n\t\x01\u0085"
  severity := 2147483647
  name := Bytes.ofString "\"é\\😀"

theorem sampleResults_text : ∀ r ∈ [sampleResult, {}], ∀ t, ∃ s : String, r.text t = Bytes.ofString s := by
  refine List.forall_mem_cons.mpr ⟨fun t => ?_, List.forall_mem_singleton.mpr fun t => ⟨"", ?_⟩⟩
  · cases t
    case path | message | name => exact ⟨_, rfl⟩
    all_goals exact ⟨"", rfl⟩
  · cases t <;> rfl

end TwoPhase
