import TwoPhase.Proofs.Enclosing
import TwoPhase.Lookup

/-!
# What ordinary lookup finds

A scope offers a declaration of the name that is looked up; inside the class, where order matters, only one
that is in scope at the use. Lookup finds the first offer of the nearest scope that has one, and tells by
the place of that scope whether the name is local, a member or declared around the class.
-/

namespace TwoPhase

/-- A local declaration is in scope at a use if it comes first in the same file. Without a line on
either side, or in different files, it is taken to come first. -/
def Declaration.InScopeAt (d : Declaration) (u : NameUse) : Prop :=
  d.loc.line = 0 ∨ u.loc.line = 0 ∨
    (d.loc.file ≠ "" ∧ u.loc.file ≠ "" ∧ d.loc.file ≠ u.loc.file) ∨
    d.loc.line < u.loc.line ∨ (d.loc.line = u.loc.line ∧ d.loc.column < u.loc.column)

theorem Declaration.isBefore_iff {d : Declaration} {u : NameUse} :
    d.isBefore u = true ↔ d.InScopeAt u := by
  simp only [isBefore, InScopeAt, Bool.or_eq_true, Bool.and_eq_true, beq_iff_eq, bne_iff_ne, or_assoc,
    and_assoc]
  refine or_congr_right (or_congr_right (or_congr_right ?_))
  by_cases h : d.loc.line = u.loc.line
  · simp [h]
  · simp [h]

namespace Model

/-- Scope `s` declares the name of the use and, where it lies inside class `c`, does so before the use. -/
def Offers (m : Model) (u : NameUse) (c s : ScopeId) (d : Declaration) : Prop :=
  d ∈ (m.scope s).decls ∧ d.name = u.name ∧ (m.StrictlyWithin s c → d.InScopeAt u)

/-- `d` is the first offer of scope `s`, and no scope between the use and `s` has an offer. -/
structure NearestOffer (m : Model) (u : NameUse) (c s : ScopeId) (d : Declaration) : Prop where
  within : m.Within u.scope s
  first : ∃ before after, (m.scope s).decls = before ++ d :: after ∧ m.Offers u c s d ∧
    ∀ e ∈ before, ¬ m.Offers u c s e
  nearest : ∀ s', m.Within u.scope s' → m.StrictlyWithin s' s → ∀ e, ¬ m.Offers u c s' e

/-- The resolution of a use inside class `c`. -/
def Resolves (m : Model) (u : NameUse) (c : ScopeId) : Resolution → Prop
  | .localName d => ∃ s, m.StrictlyWithin s c ∧ m.NearestOffer u c s d
  | .member d => m.NearestOffer u c c d
  | .enclosing d => ∃ s, m.StrictlyWithin c s ∧ m.NearestOffer u c s d
  | .notFound => ∀ s, m.Within u.scope s → ∀ d, ¬ m.Offers u c s d

namespace TreeInv

variable {m : Model} {u : NameUse} {p : Declaration → Bool}

theorem find?_declared_eq_some (H : m.TreeInv) (h : (m.declared s name).find? p = some d) :
    ∃ before after, (m.scope s).decls = before ++ d :: after ∧ d.name = name ∧ p d = true ∧
      ∀ e ∈ before, e.name = name → p e = false := by
  rw [declared, H.find_eq, List.find?_filter] at h
  obtain ⟨hd, before, after, hdecls, hbefore⟩ := List.find?_eq_some_iff_append.mp h
  simp only [beq_iff_eq, Bool.decide_and, Bool.decide_eq_true, Bool.and_eq_true,
    decide_eq_true_eq] at hd
  refine ⟨before, after, hdecls, hd.1, hd.2, fun e he hname => ?_⟩
  simpa [hname] using hbefore e he

theorem find?_declared_eq_none (H : m.TreeInv) :
    (m.declared s name).find? p = none ↔
      ∀ d ∈ (m.scope s).decls, d.name = name → p d = false := by
  simp [List.find?_eq_none, H.mem_declared]

/-- Along scopes from the inside out, the first that has something is the innermost. -/
theorem findSome?_innermost (H : m.TreeInv) {l : List ScopeId} {f : ScopeId → Option α}
    (hl : l.Pairwise m.Within) (h : l.findSome? f = some a) :
    ∃ s ∈ l, f s = some a ∧ ∀ s' ∈ l, m.StrictlyWithin s' s → f s' = none := by
  obtain ⟨before, s, after, rfl, hs, hbefore⟩ := List.findSome?_eq_some_iff.mp h
  refine ⟨s, by simp, hs, fun s' hs' hlt => ?_⟩
  rcases List.mem_append.mp hs' with hs' | hs'
  · exact hbefore s' hs'
  · have hle : m.Within s s' := by
      rcases List.mem_cons.mp hs' with rfl | hs'
      · exact .refl
      · exact (List.pairwise_cons.mp (List.pairwise_append.mp hl).2.1).1 s' hs'
    exact absurd (H.within_antisymm hlt.1 hle) hlt.2

theorem mem_tail_chain (H : m.TreeInv) : s ∈ (m.chain c).tail ↔ m.StrictlyWithin c s := by
  rw [H.chain_eq]
  constructor
  · intro h
    cases hp : (m.scope c).parent with
    | none => rw [hp] at h; exact absurd h List.not_mem_nil
    | some p =>
      rw [hp] at h
      have hps := H.mem_chain.mp h
      exact ⟨.head hp hps, H.ne_of_parent_within hp hps⟩
  · rintro ⟨h, hne⟩
    rcases h.eq_or_parent with rfl | ⟨p, hp, h⟩
    · exact absurd rfl hne
    · rw [hp]
      exact H.mem_chain.mpr h

theorem not_strictlyWithin (H : m.TreeInv) (h : m.Within c s) : ¬ m.StrictlyWithin s c :=
  fun hs => hs.2 (H.within_antisymm hs.1 h)

theorem strictlyWithin_trans (H : m.TreeInv) (hij : m.StrictlyWithin i j) (hjk : m.Within j k) :
    m.StrictlyWithin i k :=
  ⟨hij.1.trans hjk, fun h => hij.2 (H.within_antisymm hij.1 (h ▸ hjk))⟩

/-! ### Offers of one scope -/

/-- What a scope inside the class offers is found among what comes before the use. -/
theorem first_offer_of_local (H : m.TreeInv) (hs : m.StrictlyWithin s c)
    (h : (m.declared s u.name).find? (·.isBefore u) = some d) :
    ∃ before after, (m.scope s).decls = before ++ d :: after ∧ m.Offers u c s d ∧
      ∀ e ∈ before, ¬ m.Offers u c s e := by
  obtain ⟨before, after, hdecls, hname, hd, hbefore⟩ := H.find?_declared_eq_some h
  refine ⟨before, after, hdecls, ⟨by simp [hdecls], hname, fun _ => Declaration.isBefore_iff.mp hd⟩, ?_⟩
  intro e he hoffer
  have hafter := hbefore e he hoffer.2.1
  rw [Declaration.isBefore_iff.mpr (hoffer.2.2 hs)] at hafter
  contradiction

theorem no_offer_of_local (H : m.TreeInv) (hs : m.StrictlyWithin s c)
    (h : (m.declared s u.name).find? (·.isBefore u) = none) (e : Declaration) :
    ¬ m.Offers u c s e := by
  intro hoffer
  have hafter := H.find?_declared_eq_none.mp h e hoffer.1 hoffer.2.1
  rw [Declaration.isBefore_iff.mpr (hoffer.2.2 hs)] at hafter
  contradiction

/-- From the class outwards every declaration of the name is an offer. -/
theorem first_offer_of_outer (H : m.TreeInv) (hs : m.Within c s)
    (h : (m.declared s u.name).head? = some d) :
    ∃ before after, (m.scope s).decls = before ++ d :: after ∧ m.Offers u c s d ∧
      ∀ e ∈ before, ¬ m.Offers u c s e := by
  have hfind : (m.declared s u.name).find? (fun _ => true) = some d := by
    cases hd : m.declared s u.name with
    | nil => simp [hd] at h
    | cons a l => simpa [hd] using h
  obtain ⟨before, after, hdecls, hname, -, hbefore⟩ := H.find?_declared_eq_some hfind
  refine ⟨before, after, hdecls, ⟨by simp [hdecls], hname, fun hlt => ?_⟩, fun e he hoffer => ?_⟩
  · exact absurd hlt (H.not_strictlyWithin hs)
  · exact absurd (hbefore e he hoffer.2.1) (by simp)

theorem no_offer_of_outer (H : m.TreeInv) (h : (m.declared s u.name).head? = none)
    (e : Declaration) : ¬ m.Offers u c s e := by
  rintro ⟨he, hname, -⟩
  have hmem := H.mem_declared.mpr ⟨he, hname⟩
  rw [List.head?_eq_none_iff.mp h] at hmem
  contradiction

/-! ### Lookup -/

theorem ordinary_eq (H : m.TreeInv) (hc : m.Within u.scope c) :
    m.ordinary u c =
      match ((m.chain u.scope).takeWhile (· != c)).findSome? fun s =>
        (m.declared s u.name).find? (·.isBefore u) with
      | some d => .localName d
      | none =>
        match (m.declared c u.name).head? with
        | some d => .member d
        | none =>
          match (m.chain c).tail.findSome? fun s => (m.declared s u.name).head? with
          | some d => .enclosing d
          | none => .notFound := by
  unfold ordinary
  simp only [H.dropWhile_chain hc]
  rw [H.chain_eq c]
  rfl

theorem takeWhile_chain_pairwise (H : m.TreeInv) :
    ((m.chain i).takeWhile (· != c)).Pairwise m.Within :=
  (H.chain_pairwise i).sublist (List.takeWhile_sublist _)

theorem ordinary_resolves (H : m.TreeInv) (hc : m.Within u.scope c) :
    m.Resolves u c (m.ordinary u c) := by
  rw [H.ordinary_eq hc]
  split
  · next d hd =>
    obtain ⟨s, hs, hfind, hnearest⟩ := H.findSome?_innermost H.takeWhile_chain_pairwise hd
    obtain ⟨hus, hsc⟩ := (H.mem_takeWhile_chain hc).mp hs
    refine ⟨s, hsc, hus, H.first_offer_of_local hsc hfind, fun s' hus' hlt => ?_⟩
    have hlt' := H.strictlyWithin_trans hlt hsc.1
    exact H.no_offer_of_local hlt'
      (hnearest s' ((H.mem_takeWhile_chain hc).mpr ⟨hus', hlt'⟩) hlt)
  · next hlocal =>
    have hlocal (s : ScopeId) (hus : m.Within u.scope s) (hlt : m.StrictlyWithin s c) :
        ∀ e, ¬ m.Offers u c s e :=
      H.no_offer_of_local hlt (List.findSome?_eq_none_iff.mp hlocal s
        ((H.mem_takeWhile_chain hc).mpr ⟨hus, hlt⟩))
    split
    · next d hd => exact ⟨hc, H.first_offer_of_outer .refl hd, hlocal⟩
    · next hmember =>
      -- a scope around the use lies inside the class, is the class, or lies around it
      have hinner (s : ScopeId) (hus : m.Within u.scope s) (h : ¬ m.StrictlyWithin c s) :
          ∀ e, ¬ m.Offers u c s e := by
        by_cases hsc : s = c
        · subst hsc
          exact H.no_offer_of_outer hmember
        · rcases hus.total hc with hle | hle
          · exact hlocal s hus ⟨hle, hsc⟩
          · exact absurd ⟨hle, Ne.symm hsc⟩ h
      have hpair : (m.chain c).tail.Pairwise m.Within :=
        (H.chain_pairwise c).sublist (List.tail_sublist _)
      split
      · next d hd =>
        obtain ⟨s, hs, hhead, hnearest⟩ := H.findSome?_innermost hpair hd
        have hcs := H.mem_tail_chain.mp hs
        refine ⟨s, hcs, hc.trans hcs.1, H.first_offer_of_outer hcs.1 hhead, fun s' hus' hlt => ?_⟩
        by_cases hcs' : m.StrictlyWithin c s'
        · exact H.no_offer_of_outer (hnearest s' (H.mem_tail_chain.mpr hcs') hlt)
        · exact hinner s' hus' hcs'
      · next houter =>
        intro s hus
        by_cases hcs : m.StrictlyWithin c s
        · exact H.no_offer_of_outer
            (List.findSome?_eq_none_iff.mp houter s (H.mem_tail_chain.mpr hcs))
        · exact hinner s hus hcs

end TreeInv

/-! ### Local names and members -/

/-- A scope around the use and inside class `c` declares the name, in scope at the use. -/
def FoundLocally (m : Model) (u : NameUse) (c : ScopeId) : Prop :=
  ∃ s, m.Within u.scope s ∧ m.StrictlyWithin s c ∧
    ∃ d ∈ (m.scope s).decls, d.name = u.name ∧ d.InScopeAt u

/-- Class `c` itself declares the name, be it for a member, a parameter or the class. -/
def FoundInClass (m : Model) (u : NameUse) (c : ScopeId) : Prop :=
  ∃ d ∈ (m.scope c).decls, d.name = u.name

variable {m : Model} {u : NameUse}

theorem Resolves.foundLocally (h : m.Resolves u c (.localName d)) : m.FoundLocally u c := by
  obtain ⟨s, hs, hus, ⟨_, _, _, hoffer, _⟩, _⟩ := h
  exact ⟨s, hus, hs, d, hoffer.1, hoffer.2.1, hoffer.2.2 hs⟩

theorem Resolves.foundInClass (h : m.Resolves u c (.member d)) : m.FoundInClass u c := by
  obtain ⟨_, ⟨_, _, _, hoffer, _⟩, _⟩ := h
  exact ⟨d, hoffer.1, hoffer.2.1⟩

theorem not_foundLocally
    (h : ∀ s, m.Within u.scope s → m.StrictlyWithin s c → ∀ e, ¬ m.Offers u c s e) :
    ¬ m.FoundLocally u c := by
  rintro ⟨s, hus, hs, d, hd, hname, hscope⟩
  exact h s hus hs d ⟨hd, hname, fun _ => hscope⟩

theorem not_foundInClass (H : m.TreeInv) (h : ∀ e, ¬ m.Offers u c c e) : ¬ m.FoundInClass u c := by
  rintro ⟨d, hd, hname⟩
  exact h d ⟨hd, hname, fun hlt => absurd hlt (H.not_strictlyWithin .refl)⟩

theorem Resolves.not_found_of_enclosing (H : m.TreeInv) (hc : m.Within u.scope c)
    (h : m.Resolves u c (.enclosing d)) : ¬ m.FoundLocally u c ∧ ¬ m.FoundInClass u c := by
  obtain ⟨s, hcs, hnear⟩ := h
  refine ⟨not_foundLocally fun s' hus' hlt => ?_, not_foundInClass H (hnear.nearest c hc hcs)⟩
  exact hnear.nearest s' hus' (H.strictlyWithin_trans hlt hcs.1)

theorem Resolves.not_found_of_notFound (H : m.TreeInv) (hc : m.Within u.scope c)
    (h : m.Resolves u c .notFound) : ¬ m.FoundLocally u c ∧ ¬ m.FoundInClass u c :=
  ⟨not_foundLocally fun s hus _ => h s hus, not_foundInClass H (h c hc)⟩

end Model

end TwoPhase
