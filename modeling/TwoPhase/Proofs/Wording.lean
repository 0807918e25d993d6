import TwoPhase.Phrase

/-!
# What the messages of the rule say

A phrase is text around its arguments. The message about a hidden name holds the name up to the end of a
line and then the base, so that both can be read off it, as long as the name stands on one line.
-/

namespace TwoPhase

namespace Bytes

@[simp]
theorem ofString_append (s t : String) : ofString (s ++ t) = ofString s ++ ofString t := by
  simp [ofString]

theorem ofString_injective {s t : String} (h : ofString s = ofString t) : s = t := by
  refine String.toByteArray_inj.mp (ByteArray.ext ?_)
  exact Array.toList_inj.mp h

theorem ofString_inj {s t : String} : ofString s = ofString t ↔ s = t :=
  ⟨ofString_injective, congrArg ofString⟩

theorem ofChars_toList (s : String) : ofChars s.toList = ofString s := by
  have h : ofString (String.ofList s.toList) = ofChars s.toList := by
    simp only [ofString, ofChars, String.toByteArray_ofList, List.utf8Encode, List.toList_data_toByteArray]
  rw [← h, String.ofList_toList]

end Bytes

namespace Phrase

/-- Text without a percent sign is written as it stands. -/
theorem fill_text {cs : List Char} (h : '%' ∉ cs) (rest : List Char) (args : List Arg) :
    fill (cs ++ rest) args = (Bytes.ofChars cs ++ (fill rest args).1, (fill rest args).2) := by
  induction cs with
  | nil => rfl
  | cons c cs ih =>
    obtain ⟨hc, hcs⟩ := List.ne_and_not_mem_of_not_mem_cons h
    rw [List.cons_append, fill, ih hcs]
    · simp [Bytes.ofChars]
    all_goals
      intros
      exact hc (Eq.symm ‹c = '%'›)

theorem fill_verb (a : Bytes) (rest : List Char) (args : List Arg) :
    fill ('%' :: 's' :: rest) (.text a :: args) = (a ++ (fill rest args).1, (fill rest args).2) := by
  simp [fill, Arg.write, Arg.plain]

theorem format_one {before after : String} (hb : '%' ∉ before.toList) (ha : '%' ∉ after.toList)
    (a : Bytes) :
    format (before ++ "%s" ++ after) [.text a] = Bytes.ofString before ++ a ++ Bytes.ofString after := by
  have hchars : (before ++ "%s" ++ after).toList =
      before.toList ++ '%' :: 's' :: (after.toList ++ []) := by simp
  rw [format, hchars, fill_text hb, fill_verb, fill_text ha]
  simp [fill, extra, Bytes.ofChars_toList]

theorem format_two {before between : String} (hb : '%' ∉ before.toList)
    (hm : '%' ∉ between.toList) (a b : Bytes) :
    format (before ++ "%s" ++ between ++ "%s") [.text a, .text b] =
      Bytes.ofString before ++ a ++ Bytes.ofString between ++ b := by
  have hchars : (before ++ "%s" ++ between ++ "%s").toList =
      before.toList ++ '%' :: 's' :: (between.toList ++ '%' :: 's' :: []) := by simp
  rw [format, hchars, fill_text hb, fill_verb, fill_text hm, fill_verb]
  simp [fill, extra, Bytes.ofChars_toList]

/-! ### The two messages -/

/-- What stands before the name in the message about a name that a dependent base hides. -/
def hiddenLead : Language → String
  | .english => "In a class template with a dependent base, any name that may be found in that dependent base shall be referred to using a qualified-id or this->.\nName: "
  | .chinese => "在具有依赖基类的类模板中，任何可能在该依赖基类中找到的名称都应使用限定标识或 this-> 引用。\n名称："

/-- What stands before the base, on the line after the name. -/
def hiddenLabel : Language → String
  | .english => "Dependent base: "
  | .chinese => "依赖基类："

/-- The message about a name that a dependent base hides. -/
def hiddenText (l : Language) (name base : String) : String :=
  hiddenLead l ++ name ++ "\n" ++ hiddenLabel l ++ base

/-- The message about a name that needs no dependent base. -/
def compliantText (l : Language) (name : String) : String :=
  match l with
  | .english => "Name " ++ name ++ " does not rely on a dependent base"
  | .chinese => "名称 " ++ name ++ " 不依赖于依赖基类"

theorem wording_dependentBase (l : Language) :
    wording l dependentBase = hiddenLead l ++ "%s" ++ ("\n" ++ hiddenLabel l) ++ "%s" := by
  cases l with
  | english => simp [wording, dependentBase, hiddenLead, hiddenLabel]
  | chinese => simp [wording, chinese, hiddenLead, hiddenLabel]

-- A literal is opened as the list of its characters: evaluating `toList` decodes its bytes, which is slow.
set_option maxRecDepth 8000 in
theorem percent_not_mem_hiddenLead (l : Language) : '%' ∉ (hiddenLead l).toList := by
  have h {cs : List Char} (hcs : cs.contains '%' = false) : '%' ∉ (String.ofList cs).toList := by
    rw [String.toList_ofList]
    simpa using hcs
  cases l <;> exact h (by decide +kernel)

set_option maxRecDepth 8000 in
theorem head?_hiddenLead (l : Language) :
    (hiddenLead l).toList.head? = some (match l with | .english => 'I' | .chinese => '在') := by
  cases l <;> exact congrArg List.head? String.toList_ofList

theorem say_dependentBase (l : Language) (name base : String) :
    say l dependentBase [.text (Bytes.ofString name), .text (Bytes.ofString base)] =
      Bytes.ofString (hiddenText l name base) := by
  have hlead := percent_not_mem_hiddenLead l
  have hlabel : '%' ∉ ("\n" ++ hiddenLabel l).toList := by cases l <;> simp [hiddenLabel]
  rw [say, wording_dependentBase, format_two hlead hlabel]
  simp [hiddenText]

theorem say_compliant (l : Language) (name : String) :
    say l compliant [.text (Bytes.ofString name)] = Bytes.ofString (compliantText l name) := by
  cases l with
  | english =>
    have hwording : wording .english compliant =
        "Name " ++ "%s" ++ " does not rely on a dependent base" := by
      simp [wording, compliant]
    rw [say, hwording, format_one (by simp) (by simp)]
    simp [compliantText]
  | chinese =>
    have hwording : wording .chinese compliant = "名称 " ++ "%s" ++ " 不依赖于依赖基类" := by
      simp [wording, chinese, compliant, autosarDependentBase, dependentBase, List.lookup_cons]
    rw [say, hwording, format_one (by simp) (by simp)]
    simp [compliantText]

/-- The first line of a text and what follows it can be told apart. -/
theorem eq_of_append_line {a a' b b' : List Char} (ha : '\n' ∉ a) (ha' : '\n' ∉ a')
    (h : a ++ '\n' :: b = a' ++ '\n' :: b') : a = a' ∧ b = b' := by
  induction a generalizing a' with
  | nil =>
    cases a' with
    | nil => simpa using h
    | cons c a' =>
      have hc : '\n' = c := (List.cons.inj h).1
      exact absurd (hc ▸ List.mem_cons_self) ha'
  | cons c a ih =>
    cases a' with
    | nil =>
      have hc : c = '\n' := (List.cons.inj h).1
      exact absurd (hc ▸ List.mem_cons_self) ha
    | cons c' a' =>
      obtain ⟨rfl, htail⟩ := List.cons.inj h
      obtain ⟨rfl, rfl⟩ :=
        ih (List.not_mem_of_not_mem_cons ha) (List.not_mem_of_not_mem_cons ha') htail
      exact ⟨rfl, rfl⟩

theorem hiddenText_inj {l : Language} {name name' base base' : String} (h : '\n' ∉ name.toList)
    (h' : '\n' ∉ name'.toList) :
    hiddenText l name base = hiddenText l name' base' ↔ name = name' ∧ base = base' := by
  refine ⟨fun heq => ?_, fun ⟨hn, hb⟩ => hn ▸ hb ▸ rfl⟩
  have hchars : name.toList ++ '\n' :: ((hiddenLabel l).toList ++ base.toList) =
      name'.toList ++ '\n' :: ((hiddenLabel l).toList ++ base'.toList) := by
    simpa [hiddenText] using congrArg String.toList heq
  obtain ⟨hname, hbase⟩ := eq_of_append_line h h' hchars
  exact ⟨String.toList_inj.mp hname, String.toList_inj.mp (List.append_cancel_left hbase)⟩

theorem compliantText_inj {l : Language} {name name' : String} :
    compliantText l name = compliantText l name' ↔ name = name' := by
  cases l <;> simp [compliantText, ← String.toList_inj]

theorem hiddenText_ne_compliantText (l : Language) (name base name' : String) :
    hiddenText l name base ≠ compliantText l name' := by
  intro heq
  have hhead := congrArg (fun s => s.toList.head?) heq
  simp only [hiddenText, String.toList_append, List.head?_append, head?_hiddenLead] at hhead
  cases l <;> simp [compliantText] at hhead

end Phrase

end TwoPhase
