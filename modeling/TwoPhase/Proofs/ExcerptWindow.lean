import Mathlib.Algebra.Group.Int.Defs
import Mathlib.Algebra.Group.Nat.Defs
import Mathlib.Data.List.TakeWhile
import TwoPhase.SourceExcerpt

/-!
# The window of an excerpt

An excerpt shows the lines whose numbers are at most two away from a given one. The numbers have 32 bits and
wrap around, and the bounds of the window with them. Near the ends of the range the lower bound comes out, one
way or the other, above the number of any line, so that nothing is shown, which is right: no line has such a
number (`bounds_cases`). Elsewhere the bounds are what they are in the integers.
-/

namespace TwoPhase

/-! ### The lines of a text -/

namespace Lines

/-- `ls` are the lines of a text: what stands before each line feed, and what follows the last one unless it is
empty. -/
inductive HasLines : Bytes → List Bytes → Prop
  | empty : HasLines [] []
  | last {l : Bytes} : l ≠ [] → 0x0a ∉ l → HasLines l [l]
  | line {l rest : Bytes} {ls : List Bytes} : 0x0a ∉ l → HasLines rest ls →
    HasLines (l ++ 0x0a :: rest) (l :: ls)

theorem HasLines.whole_eq {b : Bytes} {ls : List Bytes} (h : HasLines b ls) : whole b = ls := by
  induction h with
  | empty => rfl
  | last hne hfeed => simp [whole, List.splitOn_eq_singleton hfeed, hne]
  | @line l rest _ hfeed _ ih =>
    -- the rest of the text has a last piece of its own
    have hrest := List.splitOn_ne_nil 0x0a rest
    rw [← ih, whole, List.splitOn_append_cons_self_of_not_mem hfeed, List.getLast?_cons_of_ne_nil hrest,
      List.dropLast_cons_of_ne_nil hrest, whole]
    split <;> rfl

/-- A byte in front of a text belongs to its first line, unless it ends a line of its own. -/
theorem exists_hasLines (b : Bytes) : ∃ ls, HasLines b ls := by
  induction b with
  | nil => exact ⟨[], .empty⟩
  | cons c b ih =>
    obtain ⟨ls, hls⟩ := ih
    by_cases hc : c = 0x0a
    · rw [hc]
      exact ⟨[] :: ls, .line List.not_mem_nil hls⟩
    · have hcons {l : Bytes} (hl : 0x0a ∉ l) : 0x0a ∉ c :: l :=
        List.not_mem_cons_of_ne_of_not_mem (Ne.symm hc) hl
      cases hls with
      | empty => exact ⟨[[c]], .last (List.cons_ne_nil c []) (hcons List.not_mem_nil)⟩
      | last _ hfeed => exact ⟨[c :: b], .last (List.cons_ne_nil c b) (hcons hfeed)⟩
      | @line l rest ls hfeed hrest => exact ⟨(c :: l) :: ls, .line (l := c :: l) (hcons hfeed) hrest⟩

/-- Every text has lines, and no others. -/
theorem hasLines_iff {b : Bytes} {ls : List Bytes} : HasLines b ls ↔ whole b = ls := by
  constructor
  · exact HasLines.whole_eq
  · rintro rfl
    obtain ⟨ls, hls⟩ := exists_hasLines b
    rw [hls.whole_eq]
    exact hls

/-- If no line is too long, all are read. -/
theorem ofBytes_of_short {b : Bytes} (h : ∀ l ∈ whole b, l.length ≤ maxLine) :
    ofBytes b = { lines := (whole b).map dropReturn, cut := false } := by
  have hall : (whole b).takeWhile (·.length ≤ maxLine) = whole b :=
    List.takeWhile_eq_self_iff.mpr fun l hl => decide_eq_true (h l hl)
  have hwithin : ofBytes b =
      { lines := ((whole b).takeWhile (·.length ≤ maxLine)).map dropReturn,
        cut := ((whole b).takeWhile (·.length ≤ maxLine)).length < (whole b).length } := rfl
  rw [hwithin, hall]
  simp

end Lines

/-! ### The window in the integers -/

/-- The line with a number, if the first of them has the number `first`. -/
def lineAt? (first : Int) (ls : List Bytes) (i : Int) : Option Bytes :=
  if first ≤ i then ls[(i - first).toNat]? else none

/-- How a line is shown: under its number, and marked if it is the one that was asked for. -/
def shownLine (mark i : Int) (l : Bytes) : Bytes :=
  Bytes.ofString ((if i = mark then "> " else "") ++ i.repr ++ "| ") ++ l ++ [0x0a]

/-- What is shown of lines that are numbered from `first` on: those at most two away from `mark`, in order. -/
def windowFrom (first mark : Int) (ls : List Bytes) : Bytes :=
  [mark - 2, mark - 1, mark, mark + 1, mark + 2].flatMap fun i =>
    ((lineAt? first ls i).map (shownLine mark i)).getD []

/-- The window around a line of a file. -/
def window (mark : Int) (ls : List Bytes) : Bytes :=
  windowFrom 1 mark ls

section

variable {first mark i : Int} {l : Bytes} {ls : List Bytes}

theorem lineAt?_cons : lineAt? first (l :: ls) i = if i = first then some l else lineAt? (first + 1) ls i := by
  unfold lineAt?
  by_cases hi : i = first
  · simp [hi]
  · by_cases hle : first + 1 ≤ i
    · obtain ⟨k, hk⟩ : ∃ k : Nat, i = first + 1 + k := ⟨(i - (first + 1)).toNat, by omega⟩
      have hsucc : (i - first).toNat = k + 1 := by omega
      have hpred : (i - (first + 1)).toNat = k := by omega
      rw [if_neg hi, if_pos hle, if_pos (by omega), hsucc, hpred, List.getElem?_cons_succ]
    · rw [if_neg hi, if_neg hle, if_neg (by omega)]

theorem lineAt?_eq_none (h : i < first ∨ first + ls.length ≤ i) : lineAt? first ls i = none := by
  unfold lineAt?
  split
  · exact List.getElem?_eq_none (by omega)
  · rfl

theorem windowFrom_eq_nil (h : mark + 2 < first ∨ first + ls.length ≤ mark - 2) : windowFrom first mark ls = [] := by
  rw [windowFrom, List.flatMap_eq_nil_iff]
  intro i hi
  simp only [List.mem_cons, List.not_mem_nil, or_false] at hi
  rw [lineAt?_eq_none (by omega)]
  rfl

/-- In numbers that increase, a value at `k` comes before all values behind `k`. -/
theorem flatMap_at {is : List Int} (hsorted : is.Pairwise (· < ·)) {k : Int} {g : Int → Bytes} (x : Bytes)
    (hg : ∀ i, i ≤ k → g i = []) :
    (is.flatMap fun i => if i = k then x else g i) = (if k ∈ is then x else []) ++ is.flatMap g := by
  induction is with
  | nil => rfl
  | cons i is ih =>
    obtain ⟨hbehind, hsorted⟩ := List.pairwise_cons.mp hsorted
    rw [List.flatMap_cons, List.flatMap_cons, ih hsorted]
    rcases Int.lt_trichotomy i k with hi | rfl | hi
    · simp [hg i (Int.le_of_lt hi), Int.ne_of_lt hi, Int.ne_of_gt hi]
    · have hnot : i ∉ is := fun hmem => absurd (hbehind i hmem) (Int.lt_irrefl i)
      simp [hg i (Int.le_refl i), hnot]
    · have hnot : k ∉ is := fun hmem => absurd (hbehind k hmem) (Int.lt_asymm hi)
      simp [Int.ne_of_lt hi, Int.ne_of_gt hi, hnot]

/-- The first line is shown if it lies in the window, and the others as if they were numbered on their own. -/
theorem windowFrom_cons : windowFrom first mark (l :: ls) =
    (if mark - 2 ≤ first ∧ first ≤ mark + 2 then shownLine mark first l else []) ++
      windowFrom (first + 1) mark ls := by
  have hshown (i : Int) : ((lineAt? first (l :: ls) i).map (shownLine mark i)).getD [] =
      if i = first then shownLine mark first l
      else ((lineAt? (first + 1) ls i).map (shownLine mark i)).getD [] := by
    rw [lineAt?_cons]
    split
    · next hi => rw [hi]; rfl
    · rfl
  have hsorted : [mark - 2, mark - 1, mark, mark + 1, mark + 2].Pairwise (· < ·) := by
    simp only [List.pairwise_cons, List.forall_mem_cons, List.not_mem_nil, false_implies, implies_true,
      List.Pairwise.nil, and_true]
    omega
  have hbefore (i : Int) (hi : i ≤ first) :
      ((lineAt? (first + 1) ls i).map (shownLine mark i)).getD [] = [] := by
    rw [lineAt?_eq_none (.inl (Int.lt_add_one_of_le hi))]
    rfl
  have hmem : first ∈ [mark - 2, mark - 1, mark, mark + 1, mark + 2] ↔ mark - 2 ≤ first ∧ first ≤ mark + 2 := by
    simp only [List.mem_cons, List.not_mem_nil, or_false]
    omega
  simp only [windowFrom, hshown]
  rw [flatMap_at hsorted _ hbefore]
  simp only [hmem]

end

/-! ### Numbers of 32 bits -/

section

variable {number mark : Int32}

theorem toInt_add_one (h : number.toInt < 2 ^ 31 - 1) : (number + 1).toInt = number.toInt + 1 := by
  have hlow := number.le_toInt
  rw [Int32.toInt_add, Int32.toInt_one]
  exact Int.bmod_eq_of_le_mul_two (by omega) (by omega)

/-- The bounds of the window are those in the integers, or its lower one is above the number of any line. -/
theorem bounds_cases (mark : Int32) :
    (mark - 2).toInt = mark.toInt - 2 ∧ (mark + 2).toInt = mark.toInt + 2 ∨
      2 ^ 31 - 4 ≤ (mark - 2).toInt ∧ (mark.toInt + 2 < 1 ∨ 2 ^ 31 - 4 ≤ mark.toInt - 2) := by
  have hlow := mark.le_toInt
  have hhigh := mark.toInt_lt
  have hlower : (mark - 2).toInt = (mark.toInt - 2).bmod (2 ^ 32) := Int32.toInt_sub mark 2
  have hupper : (mark + 2).toInt = (mark.toInt + 2).bmod (2 ^ 32) := Int32.toInt_add mark 2
  by_cases hleast : mark.toInt < -2 ^ 31 + 2
  · -- the lower bound wraps around to the other end of the range
    have hwrap : (mark - 2).toInt = mark.toInt - 2 + 2 ^ 32 := by
      rw [hlower, ← Int.add_bmod_right, Int.bmod_eq_of_le_mul_two] <;> omega
    omega
  · have hkept : (mark - 2).toInt = mark.toInt - 2 := by
      rw [hlower]
      exact Int.bmod_eq_of_le_mul_two (by omega) (by omega)
    by_cases hgreatest : 2 ^ 31 - 2 ≤ mark.toInt
    · omega
    · left
      refine ⟨hkept, ?_⟩
      rw [hupper]
      exact Int.bmod_eq_of_le_mul_two (by omega) (by omega)

theorem excerptLine_eq (mark number : Int32) (l : Bytes) :
    excerptLine mark number l = shownLine mark.toInt number.toInt l := by
  simp only [excerptLine, shownLine, Int32.toInt_inj]

/-- Above all numbers, the lower bound hides all lines. -/
theorem excerptFrom_of_lt {charset : String} {ls : List Bytes} (hroom : number.toInt + ls.length ≤ 2 ^ 31 - 4)
    (hlower : 2 ^ 31 - 4 ≤ (mark - 2).toInt) : excerptFrom charset mark number ls = ([], false) := by
  induction ls generalizing number with
  | nil => rfl
  | cons l ls ih =>
    rw [List.length_cons] at hroom
    have hskip : number < mark - 2 := Int32.lt_iff_toInt_lt.mpr (by omega)
    have hnext : (number + 1).toInt = number.toInt + 1 := toInt_add_one (by omega)
    rw [excerptFrom, if_pos hskip, ih (by omega)]

/-- Reading shows the lines of the window, and it may stop behind it. -/
theorem excerptFrom_eq {charset : String} {ls : List Bytes} (hroom : number.toInt + ls.length ≤ 2 ^ 31 - 4)
    (hcharset : ∀ l, convertCharset charset l = l)
    (hlower : (mark - 2).toInt = mark.toInt - 2) (hupper : (mark + 2).toInt = mark.toInt + 2) :
    (excerptFrom charset mark number ls).1 = windowFrom number.toInt mark.toInt ls := by
  induction ls generalizing number with
  | nil => simp [excerptFrom, windowFrom, lineAt?]
  | cons l ls ih =>
    rw [List.length_cons] at hroom
    have hnext : (number + 1).toInt = number.toInt + 1 := toInt_add_one (by omega)
    have htail : (excerptFrom charset mark (number + 1) ls).1 = windowFrom (number.toInt + 1) mark.toInt ls := by
      rw [ih (by omega), hnext]
    have hbefore : number < mark - 2 ↔ number.toInt < mark.toInt - 2 := by rw [Int32.lt_iff_toInt_lt, hlower]
    have hbehind : mark + 2 < number ↔ mark.toInt + 2 < number.toInt := by rw [Int32.lt_iff_toInt_lt, hupper]
    rw [excerptFrom]
    by_cases hlt : number.toInt < mark.toInt - 2
    · rw [if_pos (hbefore.mpr hlt), htail, windowFrom_cons, if_neg (by omega), List.nil_append]
    · rw [if_neg (hbefore.not.mpr hlt)]
      by_cases hgt : mark.toInt + 2 < number.toInt
      · rw [if_pos (hbehind.mpr hgt), windowFrom_eq_nil (.inl hgt)]
      · rw [if_neg (hbehind.not.mpr hgt), windowFrom_cons, if_pos (by omega), ← htail, hcharset, excerptLine_eq]

end

theorem convertCharset_utf8 {charset : String}
    (h : charset = "" ∨ Text.lower charset = "utf8" ∨ Text.lower charset = "utf-8") (b : Bytes) :
    convertCharset charset b = b :=
  if_pos h

/-- **An excerpt shows the lines at most two away from the one that was asked for, and no others.** For a file with
lines short enough to be read and fewer than `2 ^ 31 - 4` of them, and for any number of 32 bits, the excerpt
is the window around that number in the integers, wherever the bounds of the window wrap around. -/
theorem excerpt_eq_window {t : FileTree} {path charset : String} {content : Bytes} {ls : List Bytes}
    (hread : t.content path = .ok content) (hls : Lines.HasLines content ls)
    (hshort : ∀ l ∈ ls, l.length ≤ maxLine) (hcount : ls.length < 2 ^ 31 - 4)
    (hcharset : charset = "" ∨ Text.lower charset = "utf8" ∨ Text.lower charset = "utf-8") (mark : Int32) :
    excerpt t path mark charset = .ok (window mark.toInt (ls.map Lines.dropReturn)) := by
  obtain rfl := Lines.hasLines_iff.mp hls
  have hroom : (1 : Int32).toInt + ((Lines.whole content).map Lines.dropReturn).length ≤ 2 ^ 31 - 4 := by
    rw [Int32.toInt_one, List.length_map]
    omega
  have htext : (excerptFrom charset mark 1 ((Lines.whole content).map Lines.dropReturn)).1 =
      window mark.toInt ((Lines.whole content).map Lines.dropReturn) := by
    rcases bounds_cases mark with ⟨hlower, hupper⟩ | ⟨hlower, haway⟩
    · exact excerptFrom_eq hroom (convertCharset_utf8 hcharset) hlower hupper
    · rw [excerptFrom_of_lt hroom hlower, window, windowFrom_eq_nil]
      rw [Int32.toInt_one] at hroom
      omega
  rw [excerpt, hread]
  simp only [Lines.ofBytes_of_short hshort, htext, Bool.false_and]
  rfl

/-- Four lines, the first with a carriage return and the last without a line feed. -/
theorem excerpt_eq_window_sample :
    let t : FileTree := { here := [], entries := [(["f"], .file (Bytes.ofString "a\r\nb\n\nc") false)] }
    let ls := ["a\r", "b", "", "c"].map Bytes.ofString
    t.content "f" = .ok (Bytes.ofString "a\r\nb\n\nc") ∧ Lines.HasLines (Bytes.ofString "a\r\nb\n\nc") ls ∧
      (∀ l ∈ ls, l.length ≤ maxLine) ∧ ls.length < 2 ^ 31 - 4 ∧
      excerpt t "f" 0 "utf8" = .ok (Bytes.ofString "1| a\n2| b\n") ∧
      excerpt t "f" 4 "utf8" = .ok (Bytes.ofString "2| b\n3| \n> 4| c\n") ∧
      excerpt t "f" Int32.maxValue "utf8" = .ok [] ∧ excerpt t "f" Int32.minValue "utf8" = .ok [] := by
  intro t ls
  have hread : t.content "f" = .ok (Bytes.ofString "a\r\nb\n\nc") := by rfl
  have hls : Lines.HasLines (Bytes.ofString "a\r\nb\n\nc") ls := Lines.hasLines_iff.mpr (by decide +kernel)
  have hshort : ∀ l ∈ ls, l.length ≤ maxLine := by decide +kernel
  have hcount : ls.length < 2 ^ 31 - 4 := by decide +kernel
  have hutf8 : "utf8" = "" ∨ Text.lower "utf8" = "utf8" ∨ Text.lower "utf8" = "utf-8" :=
    .inr (.inl (by decide +kernel))
  have hwindow := excerpt_eq_window hread hls hshort hcount hutf8
  refine ⟨hread, hls, hshort, hcount, ?_, ?_, ?_, ?_⟩
  · rw [hwindow]; decide +kernel
  · rw [hwindow]; decide +kernel
  · rw [hwindow]; decide +kernel
  · rw [hwindow]; decide +kernel

end TwoPhase
