import TwoPhase.Proofs.ResultFields
import TwoPhase.Proofs.TextTokens

/-!
# The text form read back

`TextForm.layout` is the text form of a list with any number of blanks behind the names; with the fewest, it
is what `TextForm.write?` gives. Reading goes line by line: a name is known by its label, a value is a string
or a number, and white space falls away up to the next name. A result is then the collection of the fields
that were read, and a list is read result by result.
-/

namespace TwoPhase

namespace TextForm

open Bytes (isDigit)

/-! ## Layout -/

/-- A name with its colon, and `pad` blanks more than the one that stands there at least. -/
def nameText (pad : Nat) (label : Bytes) (rest : Bytes) : Bytes :=
  label ++ 0x3a :: (List.replicate (pad + 1) 0x20 ++ rest)

/-- The line of a field. -/
def line (pad : Nat) (label value : Bytes) : Bytes :=
  0x20 :: 0x20 :: nameText pad label (value ++ [0x0a])

def layoutField (pad : Nat) (r : Result) (f : Field) : Bytes :=
  match f with
  | .text t => if r.text t = [] then [] else line pad (Bytes.ofString f.label) (quoted (r.text t))
  | .int i =>
    if r.int i = 0 then [] else line pad (Bytes.ofString f.label) (Bytes.ofString (r.int i).toInt.repr)

def layoutLines (pad : Nat) (r : Result) : Bytes :=
  Field.all.flatMap (layoutField pad r)

/-- A result in text form, with `pad` more blanks behind each name. -/
def layoutResult (pad : Nat) (r : Result) : Bytes :=
  nameText pad (Bytes.ofString "results")
    (0x7b :: ((if layoutLines pad r = [] then [] else [0x0a]) ++ layoutLines pad r ++ [0x7d, 0x0a]))

/-- A list in text form, with `pad` more blanks behind each name. -/
def layout (pad : Nat) (rs : Results) : Bytes :=
  rs.flatMap (layoutResult pad)

theorem fieldLine_eq (label : String) (value : Bytes) :
    fieldLine label value = line 0 (Bytes.ofString label) value := by
  have hindent : Bytes.ofString "  " = [0x20, 0x20] := by decide
  have hcolon : Bytes.ofString ": " = [0x3a, 0x20] := by decide
  simp [fieldLine, line, nameText, hindent, hcolon]

theorem writeField_eq (r : Result) (f : Field) : writeField r f = layoutField 0 r f := by
  cases f <;> simp only [writeField, layoutField, fieldLine_eq]

theorem writeResult_eq (r : Result) : writeResult r = layoutResult 0 r := by
  have hempty : Bytes.ofString "results: \x7b\x7d\n" =
      Bytes.ofString "results" ++ [0x3a, 0x20, 0x7b, 0x7d, 0x0a] := by decide
  have hopen : Bytes.ofString "results: \x7b\n" = Bytes.ofString "results" ++ [0x3a, 0x20, 0x7b, 0x0a] := by
    decide
  have hclose : Bytes.ofString "\x7d\n" = [0x7d, 0x0a] := by decide
  have hlines : Field.all.flatMap (writeField r) = layoutLines 0 r := by
    rw [layoutLines, funext (writeField_eq r)]
  rw [writeResult, hlines, layoutResult]
  split
  next hnil => simp [hnil, hempty, nameText]
  next hnil => simp [if_neg hnil, hopen, hclose, nameText]

theorem write?_eq (rs : Results) :
    write? rs = if rs.all Result.isText then .ok (layout 0 rs) else .error .notText := by
  rw [write?, funext writeResult_eq, layout]

/-! ## White space and names -/

@[simp]
theorem skipSpace_blanks (k : Nat) (rest : Bytes) :
    skipSpace false (List.replicate k 0x20 ++ rest) = skipSpace false rest := by
  induction k with
  | zero => rfl
  | succ k ih => exact ih

theorem skipSpace_newline (rest : Bytes) : skipSpace false (0x0a :: rest) = skipSpace false rest := rfl

/-- A name that can be read. -/
def isLabel : Bytes → Bool
  | [] => false
  | x :: xs => isLetter x && xs.all fun y => isLetter y || isDigit y

theorem isLabel_label (f : Field) : isLabel (Bytes.ofString f.label) = true := by
  rcases f with t | i
  · cases t <;> decide
  · cases i <;> decide

theorem isLabel_results : isLabel (Bytes.ofString "results") = true := by decide

theorem field?_label (f : Field) : field? (Bytes.ofString f.label) = some f := by
  rcases f with t | i
  · cases t <;> decide
  · cases i <;> decide

theorem ne_of_isLetter {x y : UInt8} (hx : isLetter x = true) (hy : isLetter y = false) : x ≠ y := by
  rintro rfl
  simp [hx] at hy

/-- Bytes of a class that holds no white space and no comment sign are not skipped. -/
theorem skipSpace_cons {p : UInt8 → Bool}
    (hp : ([0x20, 0x0a, 0x0d, 0x09, 0x23] : List UInt8).all (fun y => !p y) = true) {x : UInt8}
    (hx : p x = true) (rest : Bytes) : skipSpace false (x :: rest) = x :: rest := by
  have hne : ∀ y ∈ ([0x20, 0x0a, 0x0d, 0x09, 0x23] : List UInt8), x ≠ y := by
    rintro y hy rfl
    simpa [hx] using List.all_eq_true.mp hp x hy
  simp only [List.forall_mem_cons] at hne
  simp [skipSpace, isSpace, hne]

theorem identifier?_label {label : Bytes} (h : isLabel label = true) (rest : Bytes) :
    identifier? (label ++ 0x3a :: rest) = some (label, 0x3a :: rest) := by
  obtain _ | ⟨x, xs⟩ := label
  · simp [isLabel] at h
  simp only [isLabel, Bool.and_eq_true, List.all_eq_true] at h
  have hword : ∀ y ∈ x :: xs, (isLetter y || isDigit y) = true :=
    List.forall_mem_cons.mpr ⟨by rw [h.1, Bool.true_or], h.2⟩
  have hcolon : (isLetter 0x3a || isDigit 0x3a) = false := by decide
  have htake : (x :: xs ++ 0x3a :: rest).takeWhile (fun y => isLetter y || isDigit y) = x :: xs := by
    rw [List.takeWhile_append_of_pos hword, List.takeWhile_cons, hcolon]
    simp
  have hends : wordEnds (0x3a :: rest) = true := by
    show (!isWord 0x3a) = true
    decide
  rw [List.cons_append] at htake ⊢
  simp only [identifier?, if_pos h.1, htake]
  rw [← List.cons_append, List.drop_left, if_pos hends]

theorem fieldName_nameText {label : Bytes} (h : isLabel label = true) (pad : Nat) {rest : Bytes}
    (hrest : skipSpace false rest = rest) : fieldName (nameText pad label rest) = .ok (label, true, rest) := by
  have hcolon : skipSpace false (0x3a :: (List.replicate (pad + 1) 0x20 ++ rest)) =
      0x3a :: (List.replicate (pad + 1) 0x20 ++ rest) := rfl
  rw [fieldName, nameText, identifier?_label h]
  simp only [hcolon, skipSpace_blanks, hrest]

/-! ## Fields -/

/-- What comes next, white space apart, is a name or the end of a result. -/
def NameNext (rest : Bytes) : Prop :=
  ∀ x tail, skipSpace false rest = x :: tail → isLetter x = true ∨ x = 0x7d

theorem NameNext.noString {rest : Bytes} (h : NameNext rest) : NoStringNext rest := by
  intro x tail hx
  rcases h x tail hx with hletter | rfl
  · exact ⟨ne_of_isLetter hletter (by decide), ne_of_isLetter hletter (by decide)⟩
  · decide

theorem NameNext.separator_eq {rest : Bytes} (h : NameNext rest) :
    separator (skipSpace false rest) = skipSpace false rest := by
  cases hnext : skipSpace false rest with
  | nil => rfl
  | cons x tail =>
    refine if_neg (not_or_intro ?_ ?_) <;> rcases h x tail hnext with hletter | rfl
    · exact ne_of_isLetter hletter (by decide)
    · decide
    · exact ne_of_isLetter hletter (by decide)
    · decide

theorem skipSpace_nameText {label : Bytes} (h : isLabel label = true) (pad : Nat) (rest : Bytes) :
    ∃ x tail, nameText pad label rest = x :: tail ∧ isLetter x = true ∧
      skipSpace false (nameText pad label rest) = nameText pad label rest := by
  obtain _ | ⟨x, xs⟩ := label
  · simp [isLabel] at h
  have hletter : isLetter x = true := by
    simp only [isLabel, Bool.and_eq_true] at h
    exact h.1
  exact ⟨x, _, rfl, hletter, skipSpace_cons (by decide) hletter _⟩

theorem line_append (pad : Nat) (label value rest : Bytes) :
    line pad label value ++ rest = 0x20 :: 0x20 :: nameText pad label (value ++ 0x0a :: rest) := by
  simp [line, nameText]

theorem skipSpace_line (pad : Nat) {label : Bytes} (h : isLabel label = true) (value rest : Bytes) :
    skipSpace false (line pad label value ++ rest) = nameText pad label (value ++ 0x0a :: rest) := by
  obtain ⟨_, _, _, _, hskip⟩ := skipSpace_nameText h pad (value ++ 0x0a :: rest)
  rw [line_append]
  exact hskip

theorem skipSpace_repr (n : Int32) (rest : Bytes) :
    skipSpace false (Bytes.ofString n.toInt.repr ++ rest) = Bytes.ofString n.toInt.repr ++ rest := by
  rw [← Bytes.ofChars_toList, toList_repr_int]
  split
  · rw [Bytes.ofChars_append, List.append_assoc]
    rfl
  · obtain ⟨x, xs, hxs, hx⟩ := ofChars_toDigits_eq_cons n.toInt.natAbs
    rw [List.nil_append, hxs, List.cons_append]
    exact skipSpace_cons (by decide) hx _

/-- A field is left out, or stands on a line of its own from which it is read. -/
theorem layoutField_cases (pad : Nat) {r : Result} (htext : ∀ t, Bytes.isText (r.text t) = true)
    (acc : Result) (f : Field) :
    layoutField pad r f = [] ∧ r.withField acc f = acc ∨
    ∃ value, layoutField pad r f = line pad (Bytes.ofString f.label) value ∧
      (∀ rest, skipSpace false (value ++ rest) = value ++ rest) ∧
      ∀ rest, NameNext rest →
        readValue acc f (value ++ 0x0a :: rest) = .ok (r.withField acc f, skipSpace false rest) := by
  rcases f with t | i
  · by_cases hnil : r.text t = []
    · exact .inl ⟨if_pos hnil, if_pos hnil⟩
    · refine .inr ⟨quoted (r.text t), if_neg hnil, fun _ => rfl, fun rest hrest => ?_⟩
      have hnext : NoStringNext (0x0a :: rest) := hrest.noString
      rw [readValue, strings_quoted (htext t) hnext, ok_bind]
      simp only [if_pos (htext t), Result.withField, if_neg hnil]
      rfl
  · by_cases hzero : r.int i = 0
    · exact .inl ⟨if_pos hzero, if_pos hzero⟩
    · refine .inr ⟨Bytes.ofString (r.int i).toInt.repr, if_neg hzero, skipSpace_repr (r.int i),
        fun rest _ => ?_⟩
      rw [readValue, int?_repr hzero]
      simp only [Result.withField, if_neg hzero]
      rfl

theorem layoutField_eq (pad : Nat) (r : Result) (f : Field) :
    layoutField pad r f = [] ∨ ∃ value, layoutField pad r f = line pad (Bytes.ofString f.label) value := by
  rcases f with t | i
  · by_cases hnil : r.text t = []
    · exact .inl (if_pos hnil)
    · exact .inr ⟨_, if_neg hnil⟩
  · by_cases hzero : r.int i = 0
    · exact .inl (if_pos hzero)
    · exact .inr ⟨_, if_neg hzero⟩

theorem nameNext_lines (pad : Nat) (r : Result) (order : List Field) (rest : Bytes) :
    NameNext (order.flatMap (layoutField pad r) ++ 0x7d :: rest) := by
  induction order with
  | nil =>
    intro x tail hx
    exact .inr (List.cons.inj hx).1.symm
  | cons f order ih =>
    rw [List.flatMap_cons, List.append_assoc]
    rcases layoutField_eq pad r f with hnil | ⟨value, hline⟩
    · rwa [hnil, List.nil_append]
    · intro x tail hx
      obtain ⟨y, ys, hname, hletter, _⟩ := skipSpace_nameText (isLabel_label f) pad
        (value ++ 0x0a :: (order.flatMap (layoutField pad r) ++ 0x7d :: rest))
      rw [hline, skipSpace_line pad (isLabel_label f), hname] at hx
      exact .inl ((List.cons.inj hx).1 ▸ hletter)

/-- One line is read, and then the rest. -/
theorem readFields_line {pad fuel : Nat} {seen : List Field} {acc acc' : Result} {f : Field}
    {value rest : Bytes} (hnew : f ∉ seen)
    (hvalue : skipSpace false (value ++ 0x0a :: rest) = value ++ 0x0a :: rest) (hrest : NameNext rest)
    (hread : readValue acc f (value ++ 0x0a :: rest) = .ok (acc', skipSpace false rest)) :
    readFields 0x7d (fuel + 1) seen acc
        (skipSpace false (line pad (Bytes.ofString f.label) value ++ rest)) =
      readFields 0x7d fuel (f :: seen) acc' (skipSpace false rest) := by
  obtain ⟨x, tail, hname, hletter, _⟩ := skipSpace_nameText (isLabel_label f) pad (value ++ 0x0a :: rest)
  have hclose : x ≠ 0x7d := ne_of_isLetter hletter (by decide)
  have hfield := fieldName_nameText (isLabel_label f) pad hvalue
  rw [skipSpace_line pad (isLabel_label f)]
  rw [hname] at hfield ⊢
  rw [readFields, if_neg hclose, hfield, ok_bind]
  simp only [field?_label]
  rw [if_neg (by simpa using hnew)]
  simp only [hread, ok_bind, hrest.separator_eq]

theorem readFields_layout {pad : Nat} {r : Result} (htext : ∀ t, Bytes.isText (r.text t) = true) (rest : Bytes)
    {order : List Field} (hnodup : order.Nodup) {seen : List Field} (hseen : ∀ f ∈ order, f ∉ seen)
    {fuel : Nat} (hfuel : (order.flatMap (layoutField pad r)).length < fuel) (acc : Result) :
    readFields 0x7d fuel seen acc (skipSpace false (order.flatMap (layoutField pad r) ++ 0x7d :: rest)) =
      .ok (order.foldl r.withField acc, skipSpace false rest) := by
  obtain ⟨fuel, rfl⟩ : ∃ fuel', fuel = fuel' + 1 := ⟨fuel - 1, by omega⟩
  induction order generalizing seen fuel acc with
  | nil => rfl
  | cons f order ih =>
    obtain ⟨hf, hnodup⟩ := List.nodup_cons.mp hnodup
    obtain ⟨hnew, hseen⟩ := List.forall_mem_cons.mp hseen
    rw [List.flatMap_cons] at hfuel ⊢
    rw [List.foldl_cons]
    rcases layoutField_cases pad htext acc f with ⟨hnil, hacc⟩ | ⟨value, hline, hvalue, hread⟩
    · rw [hnil, List.nil_append] at hfuel ⊢
      rw [hacc]
      exact ih hnodup hseen acc fuel hfuel
    · have hnext := nameNext_lines pad r order rest
      rw [hline, List.append_assoc, readFields_line hnew (hvalue _) hnext (hread _ hnext)]
      rw [hline, List.length_append] at hfuel
      have hlength : 0 < (line pad (Bytes.ofString f.label) value).length := by simp [line]
      obtain ⟨fuel, rfl⟩ : ∃ fuel', fuel = fuel' + 1 := ⟨fuel - 1, by omega⟩
      refine ih hnodup (fun g hg => ?_) _ fuel (by omega)
      exact List.not_mem_cons_of_ne_of_not_mem (fun heq => hf (heq ▸ hg)) (hseen g hg)

/-- What stands between the braces of a result, and the closing brace. -/
def layoutBody (pad : Nat) (r : Result) (rest : Bytes) : Bytes :=
  (if layoutLines pad r = [] then [] else [0x0a]) ++ layoutLines pad r ++ 0x7d :: rest

/-- **A result in text form is read as itself.** -/
theorem readResult_layout (pad : Nat) {r : Result} (htext : ∀ t, Bytes.isText (r.text t) = true)
    (rest : Bytes) : readResult (0x7b :: layoutBody pad r rest) = .ok (r, skipSpace false rest) := by
  have hskip : skipSpace false (layoutBody pad r rest) =
      skipSpace false (layoutLines pad r ++ 0x7d :: rest) := by
    unfold layoutBody
    split
    · rw [List.nil_append]
    · rw [List.append_assoc, List.singleton_append, skipSpace_newline]
  have hlength : (layoutLines pad r).length < (layoutBody pad r rest).length + 1 := by
    simp only [layoutBody, List.length_append]
    omega
  rw [readResult, hskip]
  rw [layoutLines, readFields_layout htext rest Field.nodup_all (fun _ _ => List.not_mem_nil) hlength,
    Result.foldl_withField r Field.mem_all]

/-! ## Lists -/

theorem layoutResult_append (pad : Nat) (r : Result) (rest : Bytes) :
    layoutResult pad r ++ rest =
      nameText pad (Bytes.ofString "results") (0x7b :: layoutBody pad r (0x0a :: rest)) := by
  simp [layoutResult, layoutBody, nameText]

theorem nameNext_results (pad : Nat) (rs : Results) : NameNext (rs.flatMap (layoutResult pad)) := by
  intro x tail hx
  cases rs with
  | nil => exact absurd hx (List.cons_ne_nil x tail).symm
  | cons r rs =>
    obtain ⟨y, ys, hname, hletter, hskip⟩ := skipSpace_nameText isLabel_results pad
      (0x7b :: layoutBody pad r (0x0a :: rs.flatMap (layoutResult pad)))
    rw [List.flatMap_cons, layoutResult_append, hskip, hname] at hx
    exact .inl ((List.cons.inj hx).1 ▸ hletter)

theorem readEntry_layout (pad : Nat) {r : Result} (htext : ∀ t, Bytes.isText (r.text t) = true) (acc : Results)
    (rest : Bytes) :
    readEntry acc (0x7b :: layoutBody pad r (0x0a :: rest)) = .ok (acc ++ [r], skipSpace false rest) := by
  have hread := readResult_layout pad htext (0x0a :: rest)
  rw [readEntry, hread, ok_bind, skipSpace_newline]
  · rfl
  · rintro _ ⟨⟩

/-- All results are read, one after the other. -/
theorem readAll_layout (pad : Nat) {rs : Results} (htext : ∀ r ∈ rs, ∀ t, Bytes.isText (r.text t) = true)
    {fuel : Nat} (hfuel : rs.length < fuel) (acc : Results) :
    readAll fuel acc (skipSpace false (rs.flatMap (layoutResult pad))) = .ok (acc ++ rs) := by
  obtain ⟨fuel, rfl⟩ : ∃ fuel', fuel = fuel' + 1 := ⟨fuel - 1, by omega⟩
  induction rs generalizing fuel acc with
  | nil => rw [List.append_nil]; rfl
  | cons r rs ih =>
    obtain ⟨hhead, htail⟩ := List.forall_mem_cons.mp htext
    obtain ⟨x, xs, hname, _, hskip⟩ := skipSpace_nameText isLabel_results pad
      (0x7b :: layoutBody pad r (0x0a :: rs.flatMap (layoutResult pad)))
    have hopen : skipSpace false (0x7b :: layoutBody pad r (0x0a :: rs.flatMap (layoutResult pad))) =
        0x7b :: layoutBody pad r (0x0a :: rs.flatMap (layoutResult pad)) := rfl
    have hfield := fieldName_nameText isLabel_results pad hopen
    obtain ⟨fuel, rfl⟩ : ∃ fuel', fuel = fuel' + 1 := ⟨fuel - 1, by rw [List.length_cons] at hfuel; omega⟩
    rw [List.flatMap_cons, layoutResult_append, hskip]
    rw [hname] at hfield ⊢
    rw [readAll.eq_3 _ _ _ (List.cons_ne_nil x xs), hfield, ok_bind]
    simp only [ne_eq, not_true_eq_false, if_false]
    rw [readEntry_layout pad hhead, ok_bind, (nameNext_results pad rs).separator_eq]
    rw [ih htail (acc ++ [r]) fuel (Nat.lt_of_succ_lt_succ hfuel), List.append_assoc, List.singleton_append]

theorem length_le_layout (pad : Nat) (rs : Results) : rs.length ≤ (layout pad rs).length := by
  induction rs with
  | nil => exact Nat.zero_le _
  | cons r rs ih =>
    have hpos : 0 < (layoutResult pad r).length := by
      rw [layoutResult, nameText, List.length_append, List.length_cons]
      omega
    rw [layout] at ih
    rw [layout, List.flatMap_cons, List.length_append, List.length_cons]
    omega

theorem read?_layout (pad : Nat) {rs : Results} (htext : ∀ r ∈ rs, ∀ t, Bytes.isText (r.text t) = true) :
    read? (layout pad rs) = .ok rs := by
  have hfuel : rs.length < (layout pad rs).length + 1 := Nat.lt_succ_of_le (length_le_layout pad rs)
  exact (readAll_layout pad htext hfuel []).trans (by rw [List.nil_append])

end TextForm

open TextForm in
/-- **Results survive their text form.** Writing fails exactly if some text of some result is no UTF-8.
Otherwise what is written is read as the list itself, and so is the same text with further blanks behind
the names. -/
theorem TextForm.layout_reads_back (rs : Results) :
    ((∃ e, write? rs = .error e) ↔ ∃ r ∈ rs, ∃ t, ¬ ∃ s : String, r.text t = Bytes.ofString s) ∧
    ((∀ r ∈ rs, ∀ t, ∃ s : String, r.text t = Bytes.ofString s) →
      write? rs = .ok (layout 0 rs) ∧ ∀ pad, read? (layout pad rs) = .ok rs) := by
  simp only [← Bytes.isText_iff_string, TextForm.write?_eq]
  by_cases h : rs.all Result.isText = true
  · have htext : ∀ r ∈ rs, ∀ t, Bytes.isText (r.text t) = true := fun r hr =>
      Result.isText_iff.mp (List.all_eq_true.mp h r hr)
    refine ⟨iff_of_false (by simp [h]) ?_, fun _ => ⟨if_pos h, fun pad => read?_layout pad htext⟩⟩
    rintro ⟨r, hr, t, ht⟩
    exact ht (htext r hr t)
  · obtain ⟨r, hr, t, ht⟩ : ∃ r ∈ rs, ∃ t, ¬ Bytes.isText (r.text t) = true := by
      simpa [Result.isText_iff] using h
    exact ⟨iff_of_true ⟨_, if_neg h⟩ ⟨r, hr, t, ht⟩, fun htext => absurd (htext r hr t) ht⟩

open TextForm in
theorem TextForm.layout_reads_back_sample :
    (∀ r ∈ [sampleResult, {}], ∀ t, ∃ s : String, r.text t = Bytes.ofString s) ∧
    ∃ b, write? [sampleResult, {}] = .ok b ∧ read? b = .ok [sampleResult, {}] := by
  have htext := sampleResults_text
  obtain ⟨hwrite, hread⟩ := (layout_reads_back [sampleResult, {}]).2 htext
  exact ⟨htext, _, hwrite, hread 0⟩

end TwoPhase
