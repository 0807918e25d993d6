import TwoPhase.Json.Reader
import TwoPhase.Proofs.DecimalDigits

/-!
# Written JSON values

`Json.Spells v text` says that `text` is a way to write `v` without blanks: numbers are integers in decimal
notation, and each character of a string may be escaped in any of the ways there are. Main statements:

* `Json.parse?_spells`: whatever way it is written, a value is read back, unless it nests deeper than
  `Json.maxDepth`;
* `Json.nesting_le_of_parse?`: no value that is read nests so deep.
-/

namespace TwoPhase

namespace Json

/-! ## Strings -/

/-- `text` is a way to write `c` between quotes. -/
inductive CharText : Char → List Char → Prop
  | plain {c : Char} : 0x20 ≤ c.toNat → c ≠ '"' → c ≠ '\\' → CharText c [c]
  | short {c e : Char} : shortEscape? e = some c → CharText c ['\\', e]
  | unit {c h i j k : Char} : unit? h i j k = some c.toNat → CharText c ['\\', 'u', h, i, j, k]
  | pair {c h i j k h' i' j' k' : Char} {hi lo : Nat} :
    unit? h i j k = some hi → unit? h' i' j' k' = some lo → surrogatePair? hi lo = some c →
    CharText c ['\\', 'u', h, i, j, k, '\\', 'u', h', i', j', k']

/-- `text` is a way to write the characters between quotes. -/
inductive CharsText : List Char → List Char → Prop
  | nil : CharsText [] []
  | cons {c : Char} {cs text texts : List Char} :
    CharText c text → CharsText cs texts → CharsText (c :: cs) (text ++ texts)

theorem surrogatePair?_toNat (c : Char) (lo : Nat) : surrogatePair? c.toNat lo = none := by
  have hvalid := c.valid
  simp only [UInt32.isValidChar, Nat.isValidChar, Char.toNat_val] at hvalid
  exact if_neg (by omega)

theorem unitChar_toNat (c : Char) : unitChar c.toNat = c := by
  have hvalid : c.toNat.isValidChar := c.valid
  rw [unitChar, if_pos hvalid, Char.ofNat_toNat]

theorem flush_consUnit (c : Char) (t : Tail) : (t.consUnit c.toNat).flush = c :: t.flush := by
  have hnone : t.unit.bind (surrogatePair? c.toNat) = none := by
    cases t.unit with
    | none => rfl
    | some lo => exact surrogatePair?_toNat c lo
  simp [Tail.consUnit, hnone, Tail.flush, unitChar_toNat]

theorem flush_consUnit_pair {hi lo : Nat} {c : Char} (h : surrogatePair? hi lo = some c) (t : Tail) :
    ((t.consUnit lo).consUnit hi).flush = c :: t.flush := by
  have hlo : ∀ next, surrogatePair? lo next = none := by
    intro next
    unfold surrogatePair? at h ⊢
    split at h
    · exact if_neg (by omega)
    · cases h
  have hnone : t.unit.bind (surrogatePair? lo) = none := by
    cases t.unit with
    | none => rfl
    | some next => exact hlo next
  simp [Tail.consUnit, hnone, h, Tail.flush]

/-- A written character is read in front of what follows. -/
theorem stringTail?_charText {c : Char} {text rest : List Char} (h : CharText c text) {t : Tail}
    {r : List Char} (hrest : stringTail? rest = some (t, r)) :
    ∃ t', stringTail? (text ++ rest) = some (t', r) ∧ t'.flush = c :: t.flush := by
  cases h with
  | plain hcontrol hquote hbackslash =>
    refine ⟨t.consChar c, ?_, rfl⟩
    rw [List.singleton_append, stringTail?, if_neg (not_or_intro (by omega) hbackslash), hrest]
    · rfl
    · exact hquote
    · exact fun _ _ _ _ _ hc _ => hbackslash hc
    · exact fun _ _ hc _ => hbackslash hc
  | @short e hshort =>
    have he : e ≠ 'u' := by
      rintro rfl
      cases hshort
    refine ⟨t.consChar c, ?_, rfl⟩
    rw [List.cons_append, List.singleton_append, stringTail?, hshort, hrest]
    · rfl
    · exact fun _ _ _ _ _ hu _ => he hu
  | unit hunit =>
    refine ⟨t.consUnit c.toNat, ?_, flush_consUnit c t⟩
    simp [stringTail?, hunit, hrest]
  | pair hhi hlo hpair =>
    refine ⟨(t.consUnit _).consUnit _, ?_, flush_consUnit_pair hpair t⟩
    simp [stringTail?, hhi, hlo, hrest]

theorem stringTail?_charsText {cs text : List Char} (h : CharsText cs text) (rest : List Char) :
    ∃ t, stringTail? (text ++ '"' :: rest) = some (t, rest) ∧ t.flush = cs := by
  induction h with
  | nil => exact ⟨{}, rfl, rfl⟩
  | cons hc _ ih =>
    obtain ⟨t, ht, hflush⟩ := ih
    obtain ⟨t', ht', hflush'⟩ := stringTail?_charText hc ht
    exact ⟨t', by rwa [List.append_assoc], by rw [hflush', hflush]⟩

theorem stringBody?_charsText {cs text : List Char} (h : CharsText cs text) (rest : List Char) :
    stringBody? (text ++ '"' :: rest) = some (cs, rest) := by
  obtain ⟨t, ht, hflush⟩ := stringTail?_charsText h rest
  simp [stringBody?, ht, hflush]

theorem hexValue?_digitChar {d : Nat} (h : d < 16) : Bytes.hexValue? (Nat.digitChar d) = some d := by
  have hall : ∀ d < 16, Bytes.hexValue? (Nat.digitChar d) = some d := by decide
  exact hall d h

theorem unit?_hexDigits {n : Nat} (h : n < 0x10000) : ∃ a b c d,
    Bytes.hexDigits 4 n = [a, b, c, d] ∧ unit? a b c d = some n := by
  refine ⟨_, _, _, _, rfl, ?_⟩
  simp only [unit?, hexValue?_digitChar (Nat.mod_lt _ (by decide : 0 < 16)), Option.bind_eq_bind,
    Option.bind_some]
  exact congrArg some (by omega)

/-- **What is written for a character stands for it.** -/
theorem charText_escape (c : Char) : CharText c (escape c) := by
  unfold escape
  split
  next h =>
    subst h
    exact .short rfl
  split
  next h =>
    subst h
    exact .short rfl
  split
  next h =>
    subst h
    exact .short rfl
  split
  next h =>
    subst h
    exact .short rfl
  split
  next h =>
    subst h
    exact .short rfl
  split
  next h =>
    obtain ⟨a, b, c', d, hdigits, hunit⟩ := unit?_hexDigits (by omega : c.toNat < 0x10000)
    rw [unicodeEscape, hdigits]
    exact .unit hunit
  next hquote hbackslash _ _ _ hcontrol => exact .plain (by omega) hquote hbackslash

theorem charsText_escape (cs : List Char) : CharsText cs (cs.flatMap escape) := by
  induction cs with
  | nil => exact .nil
  | cons c cs ih => exact .cons (charText_escape c) ih

/-! ## Numbers -/

/-- Nothing follows a value but what may close it or part it from the next. -/
def Closes (rest : List Char) : Prop :=
  ∀ c tail, rest = c :: tail → c = ',' ∨ c = ']' ∨ c = '}'

theorem Closes.takeWhile_isDigit {rest : List Char} (h : Closes rest) : rest.takeWhile Char.isDigit = [] := by
  cases rest with
  | nil => rfl
  | cons c tail => rcases h c tail rfl with rfl | rfl | rfl <;> rfl

theorem Closes.dropWhile_isDigit {rest : List Char} (h : Closes rest) :
    rest.dropWhile Char.isDigit = rest := by
  cases rest with
  | nil => rfl
  | cons c tail => rcases h c tail rfl with rfl | rfl | rfl <;> rfl

theorem Closes.fraction? {rest : List Char} (h : Closes rest) : fraction? rest = some ([], rest) := by
  cases rest with
  | nil => rfl
  | cons c tail => rcases h c tail rfl with rfl | rfl | rfl <;> rfl

theorem Closes.exponent? {rest : List Char} (h : Closes rest) : exponent? rest = some ([], rest) := by
  cases rest with
  | nil => rfl
  | cons c tail => rcases h c tail rfl with rfl | rfl | rfl <;> rfl

theorem integerPart?_toDigits (n : Nat) {rest : List Char} (h : Closes rest) :
    integerPart? (Nat.toDigits 10 n ++ rest) = some (Nat.toDigits 10 n, rest) := by
  by_cases hn : n = 0
  · subst hn
    rfl
  · obtain ⟨c, cs, hcs, hc⟩ := toDigits_eq_cons (Nat.pos_of_ne_zero hn)
    have hdigits : ∀ x ∈ Nat.toDigits 10 n, x.isDigit = true := fun x hx => isDigit_toDigits hx
    have htake : (Nat.toDigits 10 n ++ rest).takeWhile Char.isDigit = Nat.toDigits 10 n := by
      rw [List.takeWhile_append_of_pos hdigits, h.takeWhile_isDigit, List.append_nil]
    have hdrop : (Nat.toDigits 10 n ++ rest).dropWhile Char.isDigit = rest := by
      rw [List.dropWhile_append_of_pos hdigits, h.dropWhile_isDigit]
    have hread : digits? (Nat.toDigits 10 n ++ rest) = some (Nat.toDigits 10 n, rest) := by
      rw [digits?, htake, hdrop, hcs]
    rw [← hread, hcs, List.cons_append, integerPart?]
    exact fun rest hzero => hc (List.cons.inj hzero).1

theorem number?_repr (n : Int) {rest : List Char} (h : Closes rest) :
    number? (n.repr.toList ++ rest) = some (n.repr.toList, rest) := by
  have hdigits := integerPart?_toDigits n.natAbs h
  by_cases hneg : n < 0
  · simp [toList_repr_int, hneg, number?, hdigits, h.fraction?, h.exponent?]
  · have hsign : ∀ tail, Nat.toDigits 10 n.natAbs ++ rest ≠ '-' :: tail := by
      intro tail heq
      obtain ⟨c, cs, hcs⟩ := List.exists_cons_of_ne_nil (Nat.toDigits_ne_nil (n := n.natAbs) (b := 10))
      rw [hcs, List.cons_append] at heq
      obtain ⟨rfl, -⟩ := List.cons.inj heq
      exact absurd (isDigit_toDigits (hcs ▸ List.mem_cons_self)) (by decide)
    simp [toList_repr_int, hneg, number?, hdigits, h.fraction?, h.exponent?]

def startsNumber (c : Char) : Bool :=
  c == '-' || c.isDigit

theorem repr_eq_cons (n : Int) : ∃ c cs, n.repr.toList = c :: cs ∧ startsNumber c = true := by
  rw [toList_repr_int]
  split
  next => exact ⟨'-', _, rfl, rfl⟩
  next =>
    obtain ⟨c, cs, hcs⟩ := List.exists_cons_of_ne_nil (Nat.toDigits_ne_nil (n := n.natAbs) (b := 10))
    have hdigit := isDigit_toDigits (hcs ▸ List.mem_cons_self)
    exact ⟨c, cs, hcs, by simp [startsNumber, hdigit]⟩

theorem ne_of_startsNumber {c d : Char} (h : startsNumber c = true) (hd : startsNumber d = false) :
    c ≠ d := by
  rintro rfl
  rw [h] at hd
  cases hd

theorem isSpace_of_startsNumber {c : Char} (h : startsNumber c = true) : isSpace c = false := by
  have hne : ∀ d, startsNumber d = false → (c == d) = false :=
    fun d hd => beq_false_of_ne (ne_of_startsNumber h hd)
  rw [isSpace, hne ' ' rfl, hne '\t' rfl, hne '\n' rfl, hne '\r' rfl]
  rfl

/-! ## Values -/

mutual

/-- How many arrays and objects stand around the innermost point of a value. -/
def nesting : Json → Nat
  | array xs => nestingItems xs + 1
  | object ms => nestingMembers ms + 1
  | _ => 0

def nestingItems : List Json → Nat
  | [] => 0
  | x :: xs => max (nesting x) (nestingItems xs)

def nestingMembers : List (String × Json) → Nat
  | [] => 0
  | (_, v) :: ms => max (nesting v) (nestingMembers ms)

end

mutual

/-- `text` is a way to write a value without blanks. -/
inductive Spells : Json → List Char → Prop
  | null : Spells .null ['n', 'u', 'l', 'l']
  | trueWord : Spells (.bool true) ['t', 'r', 'u', 'e']
  | falseWord : Spells (.bool false) ['f', 'a', 'l', 's', 'e']
  | int (n : Int) : Spells (.int n) n.repr.toList
  | string {s : String} {text : List Char} :
    CharsText s.toList text → Spells (.string s) ('"' :: text ++ ['"'])
  | emptyArray : Spells (.array []) ['[', ']']
  | array {xs : List Json} {text : List Char} :
    SpellsItems xs text → Spells (.array xs) ('[' :: text ++ [']'])
  | emptyObject : Spells (.object []) ['{', '}']
  | object {ms : List (String × Json)} {text : List Char} :
    SpellsMembers ms text → Spells (.object ms) ('{' :: text ++ ['}'])

/-- The items of an array, parted by commas. -/
inductive SpellsItems : List Json → List Char → Prop
  | one {v : Json} {text : List Char} : Spells v text → SpellsItems [v] text
  | more {v : Json} {vs : List Json} {text texts : List Char} :
    Spells v text → SpellsItems vs texts → SpellsItems (v :: vs) (text ++ ',' :: texts)

/-- The members of an object, parted by commas. -/
inductive SpellsMembers : List (String × Json) → List Char → Prop
  | one {k : String} {v : Json} {key text : List Char} :
    CharsText k.toList key → Spells v text →
    SpellsMembers [(k, v)] ('"' :: key ++ '"' :: ':' :: text)
  | more {k : String} {v : Json} {ms : List (String × Json)} {key text texts : List Char} :
    CharsText k.toList key → Spells v text → SpellsMembers ms texts →
    SpellsMembers ((k, v) :: ms) ('"' :: key ++ '"' :: ':' :: text ++ ',' :: texts)

end

/-- A written value starts with no blank and with no bracket that closes. -/
theorem Spells.eq_cons {v : Json} {text : List Char} (h : Spells v text) :
    ∃ c cs, text = c :: cs ∧ isSpace c = false ∧ c ≠ ']' := by
  cases h with
  | int n =>
    obtain ⟨c, cs, hcs, hc⟩ := repr_eq_cons n
    exact ⟨c, cs, hcs, isSpace_of_startsNumber hc, ne_of_startsNumber hc rfl⟩
  | _ => exact ⟨_, _, rfl, rfl, by decide⟩

theorem SpellsItems.eq_cons {vs : List Json} {text : List Char} (h : SpellsItems vs text) :
    ∃ c cs, text = c :: cs ∧ isSpace c = false ∧ c ≠ ']' := by
  cases h with
  | one hv => exact hv.eq_cons
  | more hv _ =>
    obtain ⟨c, cs, rfl, hspace, hbracket⟩ := hv.eq_cons
    exact ⟨c, _, rfl, hspace, hbracket⟩

theorem skipSpace_cons {c : Char} (h : isSpace c = false) (cs : List Char) :
    skipSpace (c :: cs) = c :: cs := by
  simp [skipSpace, h]

theorem SpellsMembers.eq_cons {ms : List (String × Json)} {text : List Char}
    (h : SpellsMembers ms text) : ∃ cs, text = '"' :: cs := by
  cases h <;> exact ⟨_, rfl⟩

theorem value?_int (fuel depth : Nat) (n : Int) {rest : List Char} (h : Closes rest) :
    value? (fuel + 1) depth (n.repr.toList ++ rest) = some (.int n, rest) := by
  obtain ⟨c, cs, hcs, hc⟩ := repr_eq_cons n
  have hskip : skipSpace (n.repr.toList ++ rest) = n.repr.toList ++ rest := by
    rw [hcs, List.cons_append, skipSpace_cons (isSpace_of_startsNumber hc)]
  have hhead : ∀ d tail, startsNumber d = false → n.repr.toList ++ rest ≠ d :: tail := by
    intro d tail hd heq
    rw [hcs, List.cons_append] at heq
    exact ne_of_startsNumber hc hd (List.cons.inj heq).1
  rw [value?, hskip]
  split
  next heq => exact absurd heq (hhead _ _ rfl)
  next heq => exact absurd heq (hhead _ _ rfl)
  next heq => exact absurd heq (hhead _ _ rfl)
  next heq => exact absurd heq (hhead _ _ rfl)
  next heq => exact absurd heq (hhead _ _ rfl)
  next heq => exact absurd heq (hhead _ _ rfl)
  next => simp [number?_repr n h, Json.int]

theorem closes_comma (cs : List Char) : Closes (',' :: cs) := by
  rintro c tail ⟨⟩
  exact .inl rfl

theorem closes_bracket (cs : List Char) : Closes (']' :: cs) := by
  rintro c tail ⟨⟩
  exact .inr (.inl rfl)

theorem closes_brace (cs : List Char) : Closes ('}' :: cs) := by
  rintro c tail ⟨⟩
  exact .inr (.inr rfl)

theorem value?_array {fuel depth : Nat} {xs : List Json} {text rest : List Char}
    (h : SpellsItems xs text) (hread : items? fuel depth (text ++ ']' :: rest) = some (xs, rest)) :
    value? (fuel + 1) (depth + 1) ('[' :: text ++ [']'] ++ rest) = some (.array xs, rest) := by
  obtain ⟨c, cs, rfl, hspace, hbracket⟩ := h.eq_cons
  have hskip : skipSpace (c :: cs ++ ']' :: rest) = c :: cs ++ ']' :: rest := skipSpace_cons hspace _
  simp only [List.cons_append, List.append_assoc, List.nil_append] at hskip hread ⊢
  simp only [value?, skipSpace_cons (c := '[') rfl, hskip]
  split
  next heq => exact absurd (List.cons.inj heq).1 hbracket
  next => simp [hread]

theorem value?_object {fuel depth : Nat} {ms : List (String × Json)} {text rest : List Char}
    (h : SpellsMembers ms text) (hread : members? fuel depth (text ++ '}' :: rest) = some (ms, rest)) :
    value? (fuel + 1) (depth + 1) ('{' :: text ++ ['}'] ++ rest) = some (.object ms, rest) := by
  obtain ⟨cs, rfl⟩ := h.eq_cons
  simp only [List.cons_append, List.append_assoc, List.nil_append] at hread ⊢
  simp [value?, skipSpace_cons (c := '{') rfl, skipSpace_cons (c := '"') rfl, hread]

/-- What `value?`, `items?` and `members?` read with `fuel` steps. -/
structure ReadsWith (fuel : Nat) : Prop where
  value {v : Json} {text : List Char} (h : Spells v text) {depth : Nat} (hdepth : v.nesting ≤ depth)
    (hfuel : 2 * text.length ≤ fuel) {rest : List Char} (hrest : Closes rest) :
    value? fuel depth (text ++ rest) = some (v, rest)
  items {vs : List Json} {text : List Char} (h : SpellsItems vs text) {depth : Nat}
    (hdepth : nestingItems vs ≤ depth) (hfuel : 2 * text.length + 1 ≤ fuel) (rest : List Char) :
    items? fuel depth (text ++ ']' :: rest) = some (vs, rest)
  members {ms : List (String × Json)} {text : List Char} (h : SpellsMembers ms text) {depth : Nat}
    (hdepth : nestingMembers ms ≤ depth) (hfuel : 2 * text.length + 1 ≤ fuel) (rest : List Char) :
    members? fuel depth (text ++ '}' :: rest) = some (ms, rest)

theorem readsWith_value {fuel : Nat} (ih : ReadsWith fuel) {v : Json} {text : List Char}
    (h : Spells v text) {depth : Nat} (hdepth : v.nesting ≤ depth) (hfuel : 2 * text.length ≤ fuel + 1)
    {rest : List Char} (hrest : Closes rest) :
    value? (fuel + 1) depth (text ++ rest) = some (v, rest) := by
  cases h with
  | null => simp [value?, skipSpace, isSpace, word?]
  | trueWord => simp [value?, skipSpace, isSpace, word?]
  | falseWord => simp [value?, skipSpace, isSpace, word?]
  | int n => exact value?_int fuel depth n hrest
  | string hs =>
    simp [value?, skipSpace_cons (c := '"') rfl, stringBody?_charsText hs]
  | emptyArray =>
    obtain ⟨depth, rfl⟩ : ∃ d, depth = d + 1 := ⟨depth - 1, by simp [nesting] at hdepth; omega⟩
    rfl
  | array hitems =>
    obtain ⟨depth, rfl⟩ : ∃ d, depth = d + 1 := ⟨depth - 1, by simp [nesting] at hdepth; omega⟩
    simp only [nesting] at hdepth
    simp only [List.length_cons, List.length_append, List.length_nil] at hfuel
    exact value?_array hitems (ih.items hitems (by omega) (by omega) rest)
  | emptyObject =>
    obtain ⟨depth, rfl⟩ : ∃ d, depth = d + 1 := ⟨depth - 1, by simp [nesting] at hdepth; omega⟩
    rfl
  | object hmembers =>
    obtain ⟨depth, rfl⟩ : ∃ d, depth = d + 1 := ⟨depth - 1, by simp [nesting] at hdepth; omega⟩
    simp only [nesting] at hdepth
    simp only [List.length_cons, List.length_append, List.length_nil] at hfuel
    exact value?_object hmembers (ih.members hmembers (by omega) (by omega) rest)

theorem readsWith_items {fuel : Nat} (ih : ReadsWith fuel) {vs : List Json} {text : List Char}
    (h : SpellsItems vs text) {depth : Nat} (hdepth : nestingItems vs ≤ depth)
    (hfuel : 2 * text.length ≤ fuel) (rest : List Char) :
    items? (fuel + 1) depth (text ++ ']' :: rest) = some (vs, rest) := by
  cases h with
  | one hv =>
    have hread := ih.value hv (by simpa [nestingItems] using hdepth) hfuel (closes_bracket rest)
    simp [items?, hread, skipSpace_cons (c := ']') rfl]
  | @more v vs text texts hv hvs =>
    simp only [nestingItems, Nat.max_le] at hdepth
    simp only [List.length_cons, List.length_append] at hfuel
    have hread := ih.value hv hdepth.1 (by omega) (closes_comma (texts ++ ']' :: rest))
    have hreads := ih.items hvs hdepth.2 (by omega) rest
    simp [items?, hread, hreads, skipSpace_cons (c := ',') rfl]

theorem readsWith_members {fuel : Nat} (ih : ReadsWith fuel) {ms : List (String × Json)}
    {text : List Char} (h : SpellsMembers ms text) {depth : Nat} (hdepth : nestingMembers ms ≤ depth)
    (hfuel : 2 * text.length ≤ fuel) (rest : List Char) :
    members? (fuel + 1) depth (text ++ '}' :: rest) = some (ms, rest) := by
  cases h with
  | one hk hv =>
    simp only [nestingMembers, Nat.max_le] at hdepth
    simp only [List.length_cons, List.length_append] at hfuel
    have hread := ih.value hv hdepth.1 (by omega) (closes_brace rest)
    simp [members?, hread, skipSpace_cons (c := '"') rfl, skipSpace_cons (c := ':') rfl,
      skipSpace_cons (c := '}') rfl, stringBody?_charsText hk]
  | @more k v ms key text texts hk hv hms =>
    simp only [nestingMembers, Nat.max_le] at hdepth
    simp only [List.length_cons, List.length_append] at hfuel
    have hread := ih.value hv hdepth.1 (by omega) (closes_comma (texts ++ '}' :: rest))
    have hreads := ih.members hms hdepth.2 (by omega) rest
    simp [members?, hread, hreads, skipSpace_cons (c := '"') rfl, skipSpace_cons (c := ':') rfl,
      skipSpace_cons (c := ',') rfl, stringBody?_charsText hk]

theorem readsWith (fuel : Nat) : ReadsWith fuel := by
  induction fuel with
  | zero =>
    refine ⟨fun h _ _ hfuel => ?_, fun _ _ _ hfuel => absurd hfuel (by omega),
      fun _ _ _ hfuel => absurd hfuel (by omega)⟩
    obtain ⟨c, cs, rfl, -⟩ := h.eq_cons
    rw [List.length_cons] at hfuel
    omega
  | succ fuel ih =>
    exact ⟨fun h _ hdepth hfuel _ hrest => readsWith_value ih h hdepth hfuel hrest,
      fun h _ hdepth hfuel rest => readsWith_items ih h hdepth (by omega) rest,
      fun h _ hdepth hfuel rest => readsWith_members ih h hdepth (by omega) rest⟩

/-- **A written value is read back**, unless it nests too deep. -/
theorem parse?_spells {v : Json} {text : List Char} (h : Spells v text) (hdepth : v.nesting ≤ maxDepth) :
    parse? text = some v := by
  have hclosed : Closes [] := by
    rintro c tail ⟨⟩
  have hread := (readsWith (2 * text.length + 2)).value h hdepth (by omega) hclosed
  rw [List.append_nil] at hread
  rw [parse?, first?, hread]
  rfl

/-! ## What is written by default -/

theorem spellsItems_write {xs : List Json} (hne : xs ≠ []) (h : ∀ x ∈ xs, Spells x x.write) :
    SpellsItems xs (writeItems xs) := by
  induction xs with
  | nil => exact absurd rfl hne
  | cons x xs ih =>
    have hx := h x List.mem_cons_self
    cases xs with
    | nil => exact .one hx
    | cons y xs => exact .more hx (ih (List.cons_ne_nil _ _) fun z hz => h z (List.mem_cons_of_mem _ hz))

theorem spellsMembers_write {ms : List (String × Json)} (hne : ms ≠ [])
    (h : ∀ m ∈ ms, Spells m.2 m.2.write) : SpellsMembers ms (writeMembers ms) := by
  induction ms with
  | nil => exact absurd rfl hne
  | cons m ms ih =>
    obtain ⟨k, v⟩ := m
    have hv : Spells v v.write := h (k, v) List.mem_cons_self
    have hk := charsText_escape k.toList
    cases ms with
    | nil => simpa [writeMembers, quote] using SpellsMembers.one hk hv
    | cons m ms =>
      have hms := ih (List.cons_ne_nil _ _) fun n hn => h n (List.mem_cons_of_mem _ hn)
      simpa [writeMembers, quote] using SpellsMembers.more hk hv hms

theorem spells_write_array {xs : List Json} (h : ∀ x ∈ xs, Spells x x.write) :
    Spells (.array xs) (write (.array xs)) := by
  by_cases hne : xs = []
  · subst hne
    exact .emptyArray
  · exact .array (spellsItems_write hne h)

theorem spells_write_object {ms : List (String × Json)} (h : ∀ m ∈ ms, Spells m.2 m.2.write) :
    Spells (.object ms) (write (.object ms)) := by
  by_cases hne : ms = []
  · subst hne
    exact .emptyObject
  · exact .object (spellsMembers_write hne h)

/-! ## Depth -/

/-- What `value?`, `items?` and `members?` read with `fuel` steps nests no deeper than they allow. -/
structure NestsWithin (fuel : Nat) : Prop where
  value {depth : Nat} {cs rest : List Char} {v : Json} (h : value? fuel depth cs = some (v, rest)) :
    v.nesting ≤ depth
  items {depth : Nat} {cs rest : List Char} {vs : List Json}
    (h : items? fuel depth cs = some (vs, rest)) : nestingItems vs ≤ depth
  members {depth : Nat} {cs rest : List Char} {ms : List (String × Json)}
    (h : members? fuel depth cs = some (ms, rest)) : nestingMembers ms ≤ depth

theorem nestsWithin_value {fuel : Nat} (ih : NestsWithin fuel) {depth : Nat} {cs rest : List Char}
    {v : Json} (h : value? (fuel + 1) depth cs = some (v, rest)) : v.nesting ≤ depth := by
  rw [value?] at h
  simp only [Option.bind_eq_bind, Option.pure_def] at h
  split at h
  · obtain ⟨_, -, hv⟩ := Option.bind_eq_some_iff.mp h
    cases hv
    exact Nat.zero_le _
  · split at h
    · cases h
    · split at h
      · cases h
        exact Nat.succ_le_succ (Nat.zero_le _)
      · obtain ⟨_, hitems, hv⟩ := Option.bind_eq_some_iff.mp h
        cases hv
        exact Nat.succ_le_succ (ih.items hitems)
  · split at h
    · cases h
    · split at h
      · cases h
        exact Nat.succ_le_succ (Nat.zero_le _)
      · obtain ⟨_, hmembers, hv⟩ := Option.bind_eq_some_iff.mp h
        cases hv
        exact Nat.succ_le_succ (ih.members hmembers)
  all_goals
    obtain ⟨_, -, hv⟩ := Option.bind_eq_some_iff.mp h
    cases hv
    exact Nat.zero_le _

theorem nestsWithin_items {fuel : Nat} (ih : NestsWithin fuel) {depth : Nat} {cs rest : List Char}
    {vs : List Json} (h : items? (fuel + 1) depth cs = some (vs, rest)) : nestingItems vs ≤ depth := by
  rw [items?] at h
  obtain ⟨⟨v, r⟩, hv, h⟩ := Option.bind_eq_some_iff.mp h
  have hnesting := ih.value hv
  simp only [Option.bind_eq_bind, Option.pure_def] at h
  split at h
  · obtain ⟨_, hitems, hvs⟩ := Option.bind_eq_some_iff.mp h
    cases hvs
    exact Nat.max_le.mpr ⟨hnesting, ih.items hitems⟩
  · cases h
    exact Nat.max_le.mpr ⟨hnesting, Nat.zero_le _⟩
  · cases h

theorem nestsWithin_members {fuel : Nat} (ih : NestsWithin fuel) {depth : Nat} {cs rest : List Char}
    {ms : List (String × Json)} (h : members? (fuel + 1) depth cs = some (ms, rest)) :
    nestingMembers ms ≤ depth := by
  rw [members?] at h
  split at h
  · obtain ⟨⟨k, r⟩, -, h⟩ := Option.bind_eq_some_iff.mp h
    simp only at h
    split at h
    · obtain ⟨⟨v, r⟩, hv, h⟩ := Option.bind_eq_some_iff.mp h
      have hnesting := ih.value hv
      simp only [Option.bind_eq_bind, Option.pure_def] at h
      split at h
      · obtain ⟨_, hmembers, hms⟩ := Option.bind_eq_some_iff.mp h
        cases hms
        exact Nat.max_le.mpr ⟨hnesting, ih.members hmembers⟩
      · cases h
        exact Nat.max_le.mpr ⟨hnesting, Nat.zero_le _⟩
      · cases h
    · cases h
  · cases h

theorem nestsWithin (fuel : Nat) : NestsWithin fuel := by
  induction fuel with
  | zero =>
    refine ⟨fun h => ?_, fun h => ?_, fun h => ?_⟩
    · rw [value?] at h
      cases h
    · rw [items?] at h
      cases h
    · rw [members?] at h
      cases h
  | succ fuel ih => exact ⟨nestsWithin_value ih, nestsWithin_items ih, nestsWithin_members ih⟩

/-- A text that is read nests no deeper than `maxDepth`. -/
theorem nesting_le_of_parse? {cs : List Char} {v : Json} (h : parse? cs = some v) :
    v.nesting ≤ maxDepth := by
  rw [parse?] at h
  split at h
  next v' r hfirst =>
    split at h
    · cases h
      exact (nestsWithin _).value hfirst
    · cases h
  next => cases h

end Json

end TwoPhase
