import TwoPhase.Dependence
import Mathlib.Data.List.DropRight

/-!
# Pieces of text

The splitting functions against what they are meant to find, said without them: `IsRun` for the longest runs
of a class of characters, `Components` for the parts of a name between double colons, `Trimmed` for a text
without the white space around it.
-/

namespace TwoPhase.Text

/-! ### Runs of characters -/

/-- `w` stands in `cs` between characters with property `q`, or the ends of `cs`. -/
def StandsBetween (q : Char → Bool) (cs w : List Char) : Prop :=
  ∃ before after, cs = before ++ (w ++ after) ∧
    (∀ c ∈ before.getLast?, q c = true) ∧ ∀ c ∈ after.head?, q c = true

/-- `w` is a run of characters with property `p` that cannot be made longer. -/
def IsRun (p : Char → Bool) (cs w : List Char) : Prop :=
  w ≠ [] ∧ (∀ c ∈ w, p c = true) ∧ StandsBetween (fun c => !p c) cs w

/-- `ws` are the pieces of `cs` between the characters with property `q`. -/
inductive Pieces (q : Char → Bool) : List Char → List (List Char) → Prop
  | last : (∀ c ∈ w, q c = false) → Pieces q w [w]
  | cons : (∀ c ∈ w, q c = false) → q x = true → Pieces q rest ws →
    Pieces q (w ++ x :: rest) (w :: ws)

theorem splitOnP_pieces (q : Char → Bool) (cs : List Char) : Pieces q cs (cs.splitOnP q) := by
  induction cs with
  | nil => exact .last (w := []) fun _ h => nomatch h
  | cons c cs ih =>
    rw [List.splitOnP_cons_eq_if_modifyHead]
    split
    · next hc => exact .cons (w := []) (fun _ h => nomatch h) hc ih
    · next hc =>
      have hc : q c = false := by simpa using hc
      -- the character joins the first piece of what follows
      generalize cs.splitOnP q = ws at ih
      cases ih with
      | last hw => exact .last (List.forall_mem_cons.mpr ⟨hc, hw⟩)
      | cons hw hx hrest => exact .cons (w := c :: _) (List.forall_mem_cons.mpr ⟨hc, hw⟩) hx hrest

section
variable {q : Char → Bool} {cs w w' rest : List Char} {x y : Char}

theorem StandsBetween.eq_of_forall (hw : ∀ c ∈ cs, q c = false) (h : StandsBetween q cs w) :
    w = cs := by
  obtain ⟨before, after, rfl, hbefore, hafter⟩ := h
  have hb : before = [] := by
    rw [← List.getLast?_eq_none_iff, Option.eq_none_iff_forall_not_mem]
    intro c hc
    exact absurd (hbefore c hc) (by simp [hw c (by simp [List.mem_of_getLast? hc])])
  have ha : after = [] := by
    rw [← List.head?_eq_none_iff, Option.eq_none_iff_forall_not_mem]
    intro c hc
    exact absurd (hafter c hc) (by simp [hw c (by simp [List.mem_of_head? hc])])
  simp [hb, ha]

/-- The first mark ends the first piece. -/
theorem append_mark_inj (hw : ∀ c ∈ w, q c = false) (hw' : ∀ c ∈ w', q c = false)
    (hx : q x = true) (hafter : ∀ c ∈ after.head?, q c = true)
    (h : w ++ x :: rest = w' ++ after) : w = w' := by
  rcases List.append_eq_append_iff.mp h with ⟨l, rfl, hl⟩ | ⟨l, rfl, hl⟩
  · cases l with
    | nil => simp
    | cons a l =>
      cases hl
      exact absurd hx (by simp [hw' x (by simp)])
  · cases l with
    | nil => simp
    | cons a l =>
      cases hl
      exact absurd (hafter a rfl) (by simp [hw a (by simp)])

/-- A text behind a mark stands behind the first mark. -/
theorem append_mark_split (hw : ∀ c ∈ w, q c = false) (hy : q y = true)
    (h : w ++ x :: rest = before ++ y :: after) :
    ∃ before', rest = before' ++ after ∧ ∀ c ∈ before'.getLast?, c = y := by
  rcases List.append_eq_append_iff.mp h with ⟨l, rfl, hl⟩ | ⟨l, rfl, hl⟩
  · cases l with
    | nil =>
      cases hl
      exact ⟨[], rfl, by simp⟩
    | cons a l =>
      cases hl
      exact ⟨l ++ [y], by simp, by simp⟩
  · cases l with
    | nil =>
      cases hl
      exact ⟨[], rfl, by simp⟩
    | cons a l =>
      cases hl
      exact absurd hy (by simp [hw y (by simp)])

/-- The pieces are the texts without marks that stand between marks. -/
theorem Pieces.mem_iff (h : Pieces q cs ws) :
    w ∈ ws ↔ (∀ c ∈ w, q c = false) ∧ StandsBetween q cs w := by
  induction h with
  | last hw₀ =>
    rw [List.mem_singleton]
    constructor
    · rintro rfl
      exact ⟨hw₀, [], [], by simp, by simp, by simp⟩
    · rintro ⟨_, hstands⟩
      exact hstands.eq_of_forall hw₀
  | @cons w₀ x rest ws hw₀ hx _ ih =>
    rw [List.mem_cons, ih]
    constructor
    · rintro (rfl | ⟨hw, before, after, rfl, hbefore, hafter⟩)
      · exact ⟨hw₀, [], x :: rest, rfl, by simp, by simpa using hx⟩
      · refine ⟨hw, w₀ ++ x :: before, after, by simp, ?_, hafter⟩
        cases before with
        | nil => simpa using hx
        | cons a before => simpa using hbefore
    · rintro ⟨hw, before, after, heq, hbefore, hafter⟩
      rcases List.eq_nil_or_concat before with rfl | ⟨init, y, rfl⟩
      · exact .inl (append_mark_inj hw₀ hw hx hafter heq).symm
      · have hy : q y = true := hbefore y (by simp)
        rw [List.concat_eq_append, List.append_assoc, List.singleton_append] at heq
        obtain ⟨before', hrest, hlast⟩ := append_mark_split hw₀ hy heq
        exact .inr ⟨hw, before', after, hrest, fun c hc => hlast c hc ▸ hy, hafter⟩

end

theorem mem_runs {p : Char → Bool} {s w : String} :
    w ∈ runs p s ↔ IsRun p s.toList w.toList := by
  have hpieces := splitOnP_pieces (fun c => !p c) s.toList
  simp only [runs, List.mem_map, List.mem_filter]
  constructor
  · rintro ⟨cs, ⟨hmem, hne⟩, rfl⟩
    obtain ⟨hcs, hstands⟩ := hpieces.mem_iff.mp hmem
    simp only [String.toList_ofList]
    exact ⟨by simpa using hne, by simpa using hcs, hstands⟩
  · rintro ⟨hne, hw, hstands⟩
    have hmem := hpieces.mem_iff.mpr ⟨by simpa using hw, hstands⟩
    exact ⟨w.toList, ⟨hmem, by simpa using hne⟩, by simp⟩

/-! ### Components of a name -/

/-- Somewhere in `cs` two colons stand side by side. -/
def HasDoubleColon (cs : List Char) : Prop :=
  [':', ':'] <:+: cs

/-- `ws` are the parts of `cs` between double colons. A part ends at the first double colon, so that a
part with one more colon holds none. -/
inductive Components : List Char → List (List Char) → Prop
  | last : ¬ HasDoubleColon w → Components w [w]
  | cons : ¬ HasDoubleColon (w ++ [':']) → Components rest ws →
    Components (w ++ ':' :: ':' :: rest) (w :: ws)

theorem hasDoubleColon_cons {cs : List Char} :
    HasDoubleColon (c :: cs) ↔ (c = ':' ∧ cs.head? = some ':') ∨ HasDoubleColon cs := by
  unfold HasDoubleColon
  rw [List.infix_cons_iff]
  refine or_congr_left ?_
  cases cs with
  | nil => simp [List.prefix_cons_iff]
  | cons a cs => simp [List.cons_prefix_cons, eq_comm]

theorem componentsChars_cons {cs : List Char} (h : ¬ (c = ':' ∧ cs.head? = some ':')) :
    componentsChars (c :: cs) =
      match componentsChars cs with
      | w :: ws => (c :: w) :: ws
      | [] => [[c]] := by
  have hne : ∀ rest, c = ':' → cs = ':' :: rest → False := by
    rintro rest rfl rfl
    simp at h
  exact componentsChars.eq_3 c cs hne

theorem componentsChars_spec (cs : List Char) : Components cs (componentsChars cs) := by
  fun_induction componentsChars cs with
  | case1 => exact .last (by simp [HasDoubleColon])
  | case2 cs ih => exact .cons (w := []) (by simp [HasDoubleColon, List.infix_cons_iff]) ih
  | case3 c cs hc w ws hcs ih =>
    rw [hcs] at ih
    have hc : ¬ (c = ':' ∧ cs.head? = some ':') := by
      rintro ⟨rfl, hhead⟩
      obtain ⟨cs', rfl⟩ := List.head?_eq_some_iff.mp hhead
      exact hc cs' rfl rfl
    cases ih with
    | last hw =>
      exact .last (by rw [hasDoubleColon_cons]; exact not_or_intro hc hw)
    | cons hw hrest =>
      refine .cons (w := c :: w) ?_ hrest
      rw [List.cons_append, hasDoubleColon_cons]
      refine not_or_intro (fun h => hc ⟨h.1, ?_⟩) hw
      cases w with
      | nil => rfl
      | cons a w => exact h.2
  | case4 c cs hc hcs ih =>
    rw [hcs] at ih
    nomatch ih

theorem Components.componentsChars_eq (h : Components cs ws) : componentsChars cs = ws := by
  induction h with
  | @last w hw =>
    induction w with
    | nil => rfl
    | cons c w ih =>
      rw [hasDoubleColon_cons, not_or] at hw
      rw [componentsChars_cons hw.1, ih hw.2]
  | @cons w rest ws hw hrest ih =>
    induction w with
    | nil => rw [List.nil_append, componentsChars, ih]
    | cons c w ihw =>
      rw [List.cons_append, hasDoubleColon_cons, not_or] at hw
      have hc : ¬ (c = ':' ∧ (w ++ ':' :: ':' :: rest).head? = some ':') := by
        rintro ⟨rfl, hhead⟩
        refine hw.1 ⟨rfl, ?_⟩
        cases w with
        | nil => rfl
        | cons a w => exact hhead
      rw [List.cons_append, componentsChars_cons hc, ihw hw.2]

/-! ### White space at the ends -/

/-- `t` is `cs` without the white space at its ends. -/
def Trimmed (cs t : List Char) : Prop :=
  ∃ before after, cs = before ++ (t ++ after) ∧ (∀ c ∈ before, isBlank c = true) ∧
    (∀ c ∈ after, isBlank c = true) ∧ (∀ c ∈ t.head?, isBlank c = false) ∧
    ∀ c ∈ t.getLast?, isBlank c = false

theorem dropWhile_eq_self_of_head? {l : List Char} {p : Char → Bool} (h : ∀ c ∈ l.head?, p c = false) :
    l.dropWhile p = l := by
  cases l with
  | nil => rfl
  | cons a l => exact List.dropWhile_cons_of_neg (by simp [h a rfl])

theorem Trimmed.trimChars_eq (h : Trimmed cs t) : trimChars cs = t := by
  obtain ⟨before, after, rfl, hbefore, hafter, hhead, hlast⟩ := h
  unfold trimChars
  rw [List.dropWhile_append_of_pos hbefore]
  cases t with
  | nil =>
    rw [List.nil_append, List.dropWhile_eq_nil_iff.mpr hafter]
    rfl
  | cons a t =>
    have hfront : (a :: t ++ after).dropWhile isBlank = a :: t ++ after :=
      dropWhile_eq_self_of_head? (by simpa using hhead)
    have hback : (a :: t).reverse.dropWhile isBlank = (a :: t).reverse :=
      dropWhile_eq_self_of_head? (by rw [List.head?_reverse]; exact hlast)
    rw [hfront, List.reverse_append, List.dropWhile_append_of_pos (by simpa using hafter), hback,
      List.reverse_reverse]

theorem trimChars_spec (cs : List Char) : Trimmed cs (trimChars cs) := by
  have hsplit : trimChars cs ++ (cs.dropWhile isBlank).rtakeWhile isBlank =
      cs.dropWhile isBlank :=
    List.rdropWhile_append_rtakeWhile
  refine ⟨cs.takeWhile isBlank, (cs.dropWhile isBlank).rtakeWhile isBlank, ?_, ?_, ?_, ?_, ?_⟩
  · exact (List.takeWhile_append_dropWhile.symm).trans (congrArg _ hsplit.symm)
  · exact fun c hc => List.mem_takeWhile_imp hc
  · exact fun c hc => List.mem_rtakeWhile_imp hc
  · intro c hc
    have hhead : (cs.dropWhile isBlank).head? = some c := by
      rw [← hsplit, List.head?_append, Option.mem_def.mp hc]
      rfl
    simpa [hhead] using List.head?_dropWhile_not isBlank cs
  · intro c hc
    obtain ⟨hne, rfl⟩ := List.mem_getLast?_eq_getLast hc
    exact Bool.of_not_eq_true (List.rdropWhile_last_not isBlank (cs.dropWhile isBlank) hne)

end TwoPhase.Text
