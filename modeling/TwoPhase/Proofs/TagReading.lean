import TwoPhase.RuleTag
import TwoPhase.Proofs.Tokens
import TwoPhase.Proofs.Utf8

/-!
# Rules read back from their tags

A tag is two brackets at the start of a message, and the second one spells the rule with dots for its
underscores. The letters of a rule can stand in both brackets, so that reading stops where the tag ends, and
what the message says behind it has no part in that (`rule?_bracketed`).
-/

namespace TwoPhase

namespace RuleTag

/-! ### Pieces between separators -/

/-- What stands before the first separator goes into the first piece. -/
theorem splitOn_append {sep : UInt8} {b : Bytes} (h : sep ∉ b) (rest : Bytes) :
    (b ++ rest).splitOn sep = (rest.splitOn sep).modifyHead (b ++ ·) := by
  induction b with
  | nil => exact (congrFun List.modifyHead_id _).symm
  | cons x b ih =>
    obtain ⟨hx, hb⟩ := List.ne_and_not_mem_of_not_mem_cons h
    rw [List.cons_append, List.splitOn_cons_eq_if_modifyHead, if_neg (by simpa using hx.symm), ih hb,
      List.modifyHead_modifyHead]
    rfl

/-! ### Two brackets at the start -/

variable {label inside rule : Bytes}

/-- A class of bytes is left at the first byte that is not in it. -/
theorem span_append {p : UInt8 → Bool} {b : Bytes} {x : UInt8} (hb : ∀ y ∈ b, p y = true) (hx : p x = false)
    (rest : Bytes) :
    (b ++ x :: rest).takeWhile p = b ∧ (b ++ x :: rest).dropWhile p = x :: rest := by
  rw [List.takeWhile_append_of_pos hb, List.dropWhile_append_of_pos hb]
  simp [hx]

theorem atStart?_bracketed (hlabel : ∀ b ∈ label, isWordByte b = true) (hinside : ∀ b ∈ inside, isRuleByte b = true)
    (rest : Bytes) :
    atStart? (0x5b :: (label ++ 0x5d :: 0x5b :: (inside ++ 0x5d :: rest))) = some inside := by
  obtain ⟨-, hfirst⟩ := span_append hlabel (show isWordByte 0x5d = false by decide)
    (0x5b :: (inside ++ 0x5d :: rest))
  obtain ⟨htake, hdrop⟩ := span_append hinside (show isRuleByte 0x5d = false by decide) rest
  simp only [atStart?, hfirst, hdrop, htake]

/-- The rule of a message that starts with a tag is the one that the tag names, whatever follows. -/
theorem rule?_bracketed (hlabel : ∀ b ∈ label, isWordByte b = true) (hinside : ∀ b ∈ inside, isRuleByte b = true)
    (hrule : ruleOf? inside = some rule) (rest : Bytes) :
    rule? (0x5b :: (label ++ 0x5d :: 0x5b :: (inside ++ 0x5d :: rest))) = some rule := by
  have hfeed : (0x0a : UInt8) ∉ 0x5b :: (label ++ 0x5d :: 0x5b :: (inside ++ [0x5d])) := by
    intro hmem
    have hcases : (0x0a : UInt8) ∈ label ∨ (0x0a : UInt8) ∈ inside := by simpa using hmem
    rcases hcases with hmem | hmem
    · exact absurd (hlabel _ hmem) (by decide)
    · exact absurd (hinside _ hmem) (by decide)
  -- the tag stands in the first line, before the part of it that belongs to the message
  obtain ⟨w, ws, hlines⟩ := List.exists_cons_of_ne_nil (List.splitOn_ne_nil 0x0a rest)
  have hsplit : (0x5b :: (label ++ 0x5d :: 0x5b :: (inside ++ 0x5d :: rest))).splitOn 0x0a =
      (0x5b :: (label ++ 0x5d :: 0x5b :: (inside ++ 0x5d :: w))) :: ws := by
    have h := splitOn_append hfeed rest
    rw [hlines] at h
    simpa using h
  have hline : inLine? (0x5b :: (label ++ 0x5d :: 0x5b :: (inside ++ 0x5d :: w))) = some inside := by
    rw [inLine?, atStart?_bracketed hlabel hinside]
    rfl
  rw [rule?, hsplit, List.findSome?_cons, hline, Option.bind_some, hrule]

/-! ### The letters of a rule -/

/-- A letter or digit, or an underscore. -/
def IsIdChar (c : Char) : Prop :=
  c.isAlphanum = true ∨ c = '_'

instance (c : Char) : Decidable (IsIdChar c) :=
  inferInstanceAs (Decidable (_ ∨ _))

/-- A byte of a rule: it may stand in a bracket, and divides nothing there. -/
structure IsIdByte (b : UInt8) : Prop where
  word : isWordByte b = true
  ne_dash : b ≠ 0x2d

/-- Underscores become dots. -/
def dotByte (b : UInt8) : UInt8 :=
  if b = 0x5f then 0x2e else b

theorem IsIdByte.isRuleByte_dotByte {b : UInt8} (h : IsIdByte b) : isRuleByte (dotByte b) = true := by
  unfold dotByte
  split
  · decide
  · simp [isRuleByte, h.word]

theorem IsIdByte.dotByte_ne_dash {b : UInt8} (h : IsIdByte b) : dotByte b ≠ 0x2d := by
  unfold dotByte
  split
  · decide
  · exact h.ne_dash

theorem IsIdByte.underscored_dotByte {b : UInt8} (h : IsIdByte b) :
    (if dotByte b = 0x2e then 0x5f else dotByte b) = b := by
  have hdot : b ≠ 0x2e := by
    rintro rfl
    exact absurd h.word (by decide)
  by_cases hb : b = 0x5f
  · rw [dotByte, if_pos hb, if_pos rfl, hb]
  · rw [dotByte, if_neg hb, if_neg hdot]

theorem underscored_map_dotByte {b : Bytes} (h : ∀ x ∈ b, IsIdByte x) : underscored (b.map dotByte) = b := by
  induction b with
  | nil => rfl
  | cons x b ih =>
    have htail := ih fun y hy => h y (List.mem_cons_of_mem x hy)
    show (if dotByte x = 0x2e then 0x5f else dotByte x) :: underscored (b.map dotByte) = x :: b
    rw [(h x List.mem_cons_self).underscored_dotByte, htail]

theorem IsIdChar.toNat_lt {c : Char} (h : IsIdChar c) : c.toNat < 0x80 := by
  rcases h with h | rfl
  · have hclass : ((c.isUpper || c.isLower) || c.isDigit) = true := h
    rw [Bool.or_eq_true, Bool.or_eq_true] at hclass
    obtain ⟨d, hle, hd⟩ : ∃ d : Char, c.val ≤ d.val ∧ d.toNat < 0x80 := by
      rcases hclass with (hupper | hlower) | hdigit
      · exact ⟨'Z', (of_decide_eq_true hupper).2, by decide⟩
      · exact ⟨'z', of_decide_eq_true (Bool.and_eq_true_iff.mp hlower).2, by decide⟩
      · exact ⟨'9', of_decide_eq_true (Bool.and_eq_true_iff.mp hdigit).2, by decide⟩
    exact Nat.lt_of_le_of_lt (UInt32.le_iff_toNat_le.mp hle) hd
  · decide

theorem IsIdChar.isIdByte {c : Char} (h : IsIdChar c) : IsIdByte (UInt8.ofNat c.toNat) := by
  have hnat : (UInt8.ofNat c.toNat).toNat = c.toNat := Bytes.toNat_ofNat (by have := h.toNat_lt; omega)
  constructor
  · rcases h with h | rfl
    · simp [isWordByte, hnat, h]
    · decide
  · intro hdash
    have hc : c = '-' := by
      rw [← Char.ofNat_toNat c, ← hnat, hdash]
      rfl
    subst hc
    exact absurd h (by decide)

theorem isIdByte_of_mem {id : String} (hid : ∀ c ∈ id.toList, IsIdChar c) : ∀ b ∈ Bytes.ofString id, IsIdByte b := by
  intro b hb
  rw [← Bytes.ofChars_toList, Bytes.ofChars, List.mem_flatMap] at hb
  obtain ⟨c, hc, hb⟩ := hb
  rw [Bytes.utf8EncodeChar_ascii (hid c hc).toNat_lt, List.mem_singleton] at hb
  rw [hb]
  exact (hid c hc).isIdByte

/-! ### The texts of a tag -/

/-- An underscore becomes a dot. -/
def dotChar (c : Char) : Char :=
  if c = '_' then '.' else c

theorem map_dotChar_of_forall {cs : List Char} (h : ∀ c ∈ cs, (c == '_') = false) : cs.map dotChar = cs := by
  induction cs with
  | nil => rfl
  | cons c cs ih =>
    obtain ⟨hc, hcs⟩ := List.forall_mem_cons.mp h
    rw [List.map_cons, ih hcs, dotChar, if_neg (beq_eq_false_iff_ne.mp hc)]

/-- Pieces between underscores, put together with dots. -/
theorem intercalate_dot {cs : List Char} {ws : List (List Char)} (h : Text.Pieces (· == '_') cs ws) :
    List.intercalate ['.'] ws = cs.map dotChar := by
  induction h with
  | last hw => rw [List.intercalate_singleton, map_dotChar_of_forall hw]
  | @cons w x rest ws hw hx hrest ih =>
    obtain ⟨v, vs, rfl⟩ : ∃ v vs, ws = v :: vs := by cases hrest <;> exact ⟨_, _, rfl⟩
    have hdot : dotChar x = '.' := if_pos (beq_iff_eq.mp hx)
    rw [List.intercalate_cons_cons, ih, List.map_append, List.map_cons, map_dotChar_of_forall hw, hdot,
      List.append_assoc, List.singleton_append]

theorem toList_dotted (id : String) : (dotted ("rule_" ++ id)).toList = id.toList.map dotChar := by
  have hchars : ("rule_" ++ id).toList = 'r' :: 'u' :: 'l' :: 'e' :: '_' :: id.toList := by
    rw [String.toList_append]
    rfl
  have hsplit : ("rule_" ++ id).toList.splitOn '_' = ['r', 'u', 'l', 'e'] :: id.toList.splitOn '_' := by
    rw [hchars]
    exact List.splitOn_append_cons_self_of_not_mem (show '_' ∉ ['r', 'u', 'l', 'e'] by decide) id.toList
  rw [dotted, Text.splitAt, hsplit, String.toList_intercalate, ← intercalate_dot (Text.splitOnP_pieces _ _)]
  simp [Function.comp_def, List.splitOn_eq_splitOnP]

theorem IsIdChar.utf8EncodeChar_dotChar {c : Char} (h : IsIdChar c) :
    String.utf8EncodeChar (dotChar c) = (String.utf8EncodeChar c).map dotByte := by
  by_cases hc : c = '_'
  · subst hc
    decide +kernel
  · have hlt := h.toNat_lt
    have hbyte : UInt8.ofNat c.toNat ≠ 0x5f := by
      intro hb
      have hnat : c.toNat = 0x5f := by
        rw [← Bytes.toNat_ofNat (show c.toNat < 256 by omega), hb]
        rfl
      exact hc (Char.toNat_inj.mp hnat)
    rw [dotChar, if_neg hc, Bytes.utf8EncodeChar_ascii hlt, List.map_cons, List.map_nil, dotByte, if_neg hbyte]

/-- What stands for the letters of a rule in the second bracket. -/
theorem ofString_dotted {id : String} (hid : ∀ c ∈ id.toList, IsIdChar c) :
    Bytes.ofString (dotted ("rule_" ++ id)) = (Bytes.ofString id).map dotByte := by
  rw [← Bytes.ofChars_toList, ← Bytes.ofChars_toList, toList_dotted, Bytes.ofChars, Bytes.ofChars,
    List.flatMap_map, List.map_flatMap]
  apply List.flatMap_congr
  intro c hc
  exact (hid c hc).utf8EncodeChar_dotChar

theorem code_rule (id : String) : code ("rule_" ++ id) = id := by
  have hstart : "rule_".isPrefixOf ("rule_" ++ id) = true := by
    rw [String.isPrefixOf, String.startsWith_string_iff, String.toList_append]
    exact List.prefix_append _ _
  rw [code, if_pos hstart, String.toList_append]
  show String.ofList id.toList = id
  exact String.ofList_toList

theorem editionAndRule?_append {edition : String} (h : '/' ∉ edition.toList) (name : String) :
    editionAndRule? (edition ++ "/" ++ name) = some (edition, name) := by
  have hchars : (edition ++ "/" ++ name).toList = edition.toList ++ '/' :: name.toList := by simp
  have hedition : ∀ c ∈ edition.toList, decide (c ≠ '/') = true := fun c hc =>
    decide_eq_true fun hslash => h (hslash ▸ hc)
  rw [editionAndRule?, hchars]
  simp only [List.takeWhile_append_of_pos hedition, List.dropWhile_append_of_pos hedition]
  simp

/-! ### Reading the second bracket -/

theorem ruleOf?_misra {c : Bytes} (h : 0x2d ∉ c) :
    ruleOf? (Bytes.ofString "misra-cpp2008-" ++ c) = some (Bytes.ofString "misra_cpp_2008/rule_" ++ underscored c) := by
  have htext : Bytes.ofString "misra-cpp2008-" ++ c =
      Bytes.ofString "misra" ++ 0x2d :: (Bytes.ofString "cpp2008" ++ 0x2d :: c) := by
    rw [show Bytes.ofString "misra-cpp2008-" = Bytes.ofString "misra" ++ 0x2d :: (Bytes.ofString "cpp2008" ++ [0x2d])
      by decide +kernel]
    simp
  have hsplit : (Bytes.ofString "misra-cpp2008-" ++ c).splitOn 0x2d =
      [Bytes.ofString "misra", Bytes.ofString "cpp2008", c] := by
    rw [htext, List.splitOn_append_cons_self_of_not_mem (by decide +kernel),
      List.splitOn_append_cons_self_of_not_mem (by decide +kernel), List.splitOn_eq_singleton h]
  simp [ruleOf?, hsplit]

theorem ruleOf?_autosar {c : Bytes} (h : 0x2d ∉ c) :
    ruleOf? (Bytes.ofString "autosar-" ++ c) = some (Bytes.ofString "autosar/rule_" ++ underscored c) := by
  have htext : Bytes.ofString "autosar-" ++ c = Bytes.ofString "autosar" ++ 0x2d :: c := by
    rw [show Bytes.ofString "autosar-" = Bytes.ofString "autosar" ++ [0x2d] by decide +kernel]
    simp
  have hsplit : (Bytes.ofString "autosar-" ++ c).splitOn 0x2d = [Bytes.ofString "autosar", c] := by
    rw [htext, List.splitOn_append_cons_self_of_not_mem (by decide +kernel), List.splitOn_eq_singleton h]
  simp [ruleOf?, hsplit]

/-- A second bracket that ends with the letters of a rule is read as that rule. -/
theorem rule?_of_reads {label lead front : Bytes} {id : String} (hlabel : ∀ b ∈ label, isWordByte b = true)
    (hlead : ∀ b ∈ lead, isRuleByte b = true)
    (hreads : ∀ {c : Bytes}, 0x2d ∉ c → ruleOf? (lead ++ c) = some (front ++ underscored c))
    (hid : ∀ c ∈ id.toList, IsIdChar c) (rest : Bytes) :
    rule? (0x5b :: (label ++ 0x5d :: 0x5b :: (lead ++ (Bytes.ofString id).map dotByte ++ 0x5d :: rest))) =
      some (front ++ Bytes.ofString id) := by
  have hbytes := isIdByte_of_mem hid
  apply rule?_bracketed hlabel
  · rw [List.forall_mem_append, List.forall_mem_map]
    exact ⟨hlead, fun b hb => (hbytes b hb).isRuleByte_dotByte⟩
  · have hdash : 0x2d ∉ (Bytes.ofString id).map dotByte := by
      intro hmem
      obtain ⟨b, hb, hdash⟩ := List.mem_map.mp hmem
      exact (hbytes b hb).dotByte_ne_dash hdash
    rw [hreads hdash, underscored_map_dotByte hbytes]

theorem rule?_misra {id : String} (hid : ∀ c ∈ id.toList, IsIdChar c) (message : Bytes) :
    rule? (Bytes.ofString (text "misra_cpp_2008" ("rule_" ++ id)) ++ message) =
      some (Bytes.ofString ("misra_cpp_2008/rule_" ++ id)) := by
  have hopen : Bytes.ofString "[-][misra-cpp2008-" =
      0x5b :: ([0x2d] ++ 0x5d :: 0x5b :: Bytes.ofString "misra-cpp2008-") := by decide +kernel
  have hclose : Bytes.ofString "]: " = [0x5d, 0x3a, 0x20] := by decide +kernel
  have hlabel : ∀ b ∈ [0x2d], isWordByte b = true := List.forall_mem_singleton.mpr (by decide)
  have h := rule?_of_reads hlabel (by decide +kernel) ruleOf?_misra hid (0x3a :: 0x20 :: message)
  rw [text, if_pos rfl, Bytes.ofString_append, Bytes.ofString_append, ofString_dotted hid, hopen, hclose,
    Bytes.ofString_append, ← h]
  simp

theorem rule?_autosar {id : String} (hid : ∀ c ∈ id.toList, IsIdChar c) (message : Bytes) :
    rule? (Bytes.ofString (text "autosar" ("rule_" ++ id)) ++ message) =
      some (Bytes.ofString ("autosar/rule_" ++ id)) := by
  have hopen : Bytes.ofString "[" = [0x5b] := by decide +kernel
  have hbetween : Bytes.ofString "][autosar-" = 0x5d :: 0x5b :: Bytes.ofString "autosar-" := by decide +kernel
  have hclose : Bytes.ofString "]: " = [0x5d, 0x3a, 0x20] := by decide +kernel
  have h := rule?_of_reads (fun b hb => (isIdByte_of_mem hid b hb).word) (by decide +kernel) ruleOf?_autosar hid
    (0x3a :: 0x20 :: message)
  rw [text, if_neg (by decide), if_pos rfl, code_rule]
  simp only [Bytes.ofString_append, ofString_dotted hid, hopen, hbetween, hclose]
  rw [← h]
  simp

end RuleTag

theorem Result.tag_append {edition : String} (h : '/' ∉ edition.toList) (name : String) (r : Result) :
    r.tag (edition ++ "/" ++ name) =
      { r with
        message := Bytes.ofString (RuleTag.text edition name) ++ r.message
        ruleset := Bytes.ofString edition
        ruleId := Bytes.ofString name } := by
  rw [Result.tag, RuleTag.editionAndRule?_append h]

/-- **A tagged result names its rule twice, and both ways say the same.** For a rule of either edition whose id is
made of letters, digits and underscores, and for any message, brackets and line feeds included, the fields of
the tagged result and the tag in front of its message both spell the rule; so the rule is found with the fields
and without them. -/
theorem Result.tag_spells_rule {edition id : String} (hedition : edition = "misra_cpp_2008" ∨ edition = "autosar")
    (hid : ∀ c ∈ id.toList, c.isAlphanum = true ∨ c = '_') (r : Result) :
    let rule := edition ++ "/rule_" ++ id
    let tagged := r.tag rule
    tagged.ruleset = Bytes.ofString edition ∧ tagged.ruleId = Bytes.ofString ("rule_" ++ id) ∧
      (∃ tag, tagged.message = tag ++ r.message) ∧
      RuleTag.rule? tagged.message = some (Bytes.ofString rule) ∧
      tagged.rule? = some (Bytes.ofString rule) ∧
      ({ tagged with ruleset := [], ruleId := [] } : Result).rule? = some (Bytes.ofString rule) := by
  intro rule tagged
  have hrule : rule = edition ++ "/" ++ ("rule_" ++ id) := by
    simp only [rule, show "/rule_" = "/" ++ "rule_" from rfl, String.append_assoc]
  have hslash : '/' ∉ edition.toList := by rcases hedition with rfl | rfl <;> decide
  have htagged : tagged = _ := (congrArg r.tag hrule).trans (r.tag_append hslash ("rule_" ++ id))
  have hset : tagged.ruleset = Bytes.ofString edition := by rw [htagged]
  have hname : tagged.ruleId = Bytes.ofString ("rule_" ++ id) := by rw [htagged]
  have htext : tagged.message = Bytes.ofString (RuleTag.text edition ("rule_" ++ id)) ++ r.message := by
    rw [htagged]
  have hmessage : RuleTag.rule? tagged.message = some (Bytes.ofString rule) := by
    rw [htext]
    rcases hedition with rfl | rfl
    · exact RuleTag.rule?_misra hid r.message
    · exact RuleTag.rule?_autosar hid r.message
  refine ⟨hset, hname, ⟨_, htext⟩, hmessage, ?_, ?_⟩
  · have hset_ne : Bytes.ofString edition ≠ [] := by rcases hedition with rfl | rfl <;> decide +kernel
    have hname_ne : Bytes.ofString ("rule_" ++ id) ≠ [] := by
      rw [Bytes.ofString_append]
      exact List.append_ne_nil_of_left_ne_nil (by decide +kernel) _
    have hbytes : Bytes.ofString rule = Bytes.ofString edition ++ [0x2f] ++ Bytes.ofString ("rule_" ++ id) := by
      rw [hrule, Bytes.ofString_append (edition ++ "/"), Bytes.ofString_append edition,
        show Bytes.ofString "/" = [0x2f] by decide +kernel]
    rw [Result.rule?, hset, hname, if_pos ⟨hset_ne, hname_ne⟩, hbytes]
  · rw [Result.rule?, if_neg fun h => h.1 rfl]
    exact hmessage

/-- A message that looks like a tag of another rule, and has one on its second line. -/
theorem Result.tag_spells_rule_sample :
    (∀ c ∈ "M14_6_1_".toList, c.isAlphanum = true ∨ c = '_') ∧
      RuleTag.rule? (Result.tag "autosar/rule_M14_6_1_"
        { message := Bytes.ofString "[-][misra-cpp2008-1.2]\n[x][y-z]" }).message =
          some (Bytes.ofString "autosar/rule_M14_6_1_") := by
  have hall : "M14_6_1_".toList.all (fun c => c.isAlphanum || c == '_') = true := by decide
  have hid : ∀ c ∈ "M14_6_1_".toList, c.isAlphanum = true ∨ c = '_' := by
    intro c hc
    have hc' := List.all_eq_true.mp hall c hc
    rwa [Bool.or_eq_true, beq_iff_eq] at hc'
  exact ⟨hid, (Result.tag_spells_rule (.inr rfl) hid _).2.2.2.1⟩

end TwoPhase
