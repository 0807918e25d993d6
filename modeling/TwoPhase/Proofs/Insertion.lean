import TwoPhase.Proofs.Locality
import TwoPhase.Proofs.SameFindings

/-!
# Declarations that no verdict depends on

A variable, a type or a function that is declared in a namespace can be found by its name and nothing else: no
base denotes it, no class lies in it. So a unit that has one more of them, anywhere outside classes, functions
and blocks, is judged as before. The proof walks both units side by side: up to the new declaration the drafts
are the same, there they come to differ in a scope and a name at most, and the rest of the walk keeps one in
view of the other.
-/

namespace TwoPhase

/-- A place among the declarations of a unit around which there are only namespaces. -/
inductive Site where
  | here (before after : List Decl)
  | inside (before : List Decl) (d : DeclInfo)
      (isNamespace : NodeKind.ofText? d.kind = some .namespaceNode) (inner : Site) (after : List Decl)

namespace Site

/-- The declarations of a unit that has `ds` at this place. -/
def fill : Site → List Decl → List Decl
  | here before after, ds => before ++ ds ++ after
  | inside before d _ inner after, ds => before ++ .node d (inner.fill ds) :: after

/-- The scope and the draft with which a walk inside `p` comes to this place. -/
def reach : Site → ScopeId → Draft → ScopeId × Draft
  | here before _, p, b => (p, Draft.walkAll p b before)
  | inside before d _ inner _, p, b =>
    inner.reach ((Draft.walkAll p b before).enterNamespace p d).1
      ((Draft.walkAll p b before).enterNamespace p d).2

end Site

namespace Draft

variable {V : View} {o o' b b' : Draft} {p : ScopeId} {d : DeclInfo}

theorem walkAll_append (ds ds' : List Decl) :
    walkAll p b (ds ++ ds') = walkAll p (walkAll p b ds) ds' := by
  induction ds generalizing b with
  | nil => rfl
  | cons d ds ih => exact ih

theorem walk_namespace (h : NodeKind.ofText? d.kind = some .namespaceNode) (members : List Decl) :
    walk p b (.node d members) =
      walkAll (b.enterNamespace p d).1 (b.enterNamespace p d).2 members := by
  unfold walk
  rw [h]

theorem start_outer (file : String) : (start file).model.Outer Model.root where
  lt := (start_inv file).size_pos
  kind := fun {j} _ => by cases j <;> rfl

theorem enterNamespace_outer (H : b.model.Inv) (hp : b.model.Outer p) :
    (b.enterNamespace p d).2.model.Outer (b.enterNamespace p d).1 := by
  have he := enterNamespace_entered H hp.lt d
  have hparent := (enterNamespace_child H hp.lt (List.mem_singleton_self d)).parent_eq
  refine ⟨he.lt, fun {j} hj => ?_⟩
  rcases hj.eq_or_parent with rfl | ⟨q, hq, hqj⟩
  · exact he.kind
  · cases hparent.symm.trans hq
    exact (he.run.outer H hp).kind hqj

end Draft

namespace Site

open Draft

variable {V : View} {o o' b : Draft} {p : ScopeId} {ds ds' : List Decl}

theorem walkAll_fill_here : walkAll p b ((here before after).fill ds) =
    walkAll p (walkAll p (walkAll p b before) ds) after := by
  rw [fill, walkAll_append, walkAll_append]

theorem walkAll_fill_inside {d : DeclInfo} {h : NodeKind.ofText? d.kind = some .namespaceNode}
    {inner : Site} : walkAll p b ((inside before d h inner after).fill ds) =
    walkAll p (walkAll ((walkAll p b before).enterNamespace p d).1
      ((walkAll p b before).enterNamespace p d).2 (inner.fill ds)) after := by
  rw [fill, walkAll_append, walkAll, walk_namespace h]

/-- The walk comes to the place in a scope around which there are only namespaces. -/
theorem reach_outer (site : Site) (H : b.model.Inv) (hp : b.model.Outer p) :
    Run b (site.reach p b).2 ∧ (site.reach p b).2.model.Outer (site.reach p b).1 := by
  induction site generalizing b p with
  | here before after =>
    have hrun : Run b (walkAll p b before) := walkAll_run before H hp.lt
    exact ⟨hrun, hrun.outer H hp⟩
  | inside before d h inner after ih =>
    have hrun : Run b (walkAll p b before) := walkAll_run before H hp.lt
    have H' := hrun.inv H
    have hp' := hrun.outer H hp
    have he := enterNamespace_entered H' hp'.lt d
    obtain ⟨hreach, houter⟩ := ih (he.inv H') (enterNamespace_outer H' hp')
    exact ⟨(hrun.trans he.run).trans hreach, houter⟩

theorem exists_reach (site : Site) (file : String) : ∃ p b,
    site.reach Model.root (start file) = (p, b) ∧ b.model.Inv ∧ b.model.Outer p := by
  obtain ⟨hrun, houter⟩ := site.reach_outer (start_inv file) (start_outer file)
  exact ⟨_, _, rfl, hrun.inv (start_inv file), houter⟩

/-- What is walked at the place is walked on its way through all declarations. -/
theorem walkAll_fill_run (site : Site) (H : b.model.Inv) (hp : b.model.Outer p) :
    Run (walkAll (site.reach p b).1 (site.reach p b).2 ds) (walkAll p b (site.fill ds)) := by
  induction site generalizing b p with
  | here before after =>
    have hrun : Run b (walkAll p b before) := walkAll_run before H hp.lt
    have hp' := hrun.outer H hp
    have hrun' := walkAll_run ds (hrun.inv H) hp'.lt
    rw [walkAll_fill_here]
    exact walkAll_run after (hrun'.inv (hrun.inv H)) (hrun'.outer (hrun.inv H) hp').lt
  | inside before d h inner after ih =>
    have hrun : Run b (walkAll p b before) := walkAll_run before H hp.lt
    have H' := hrun.inv H
    have hp' := hrun.outer H hp
    have he := enterNamespace_entered H' hp'.lt d
    have hrun' := walkAll_run (inner.fill ds) (he.inv H') he.lt
    rw [walkAll_fill_inside]
    refine (ih (he.inv H') (enterNamespace_outer H' hp')).trans (walkAll_run after ?_ ?_)
    · exact hrun'.inv (he.inv H')
    · exact (hrun'.outer (he.inv H') (he.run.outer H' hp')).lt

/-- If two lists of declarations lead to drafts of which one is seen in the other, so do the lists around
them. -/
theorem walkAll_fill_seen (site : Site) (H : b.model.Inv) (hp : b.model.Outer p)
    (hmap : ∀ i < (site.reach p b).2.next, V.map i = i) (hsees : ∀ i n, V.sees i n)
    (h : SeenIn V o o' (walkAll (site.reach p b).1 (site.reach p b).2 ds)
      (walkAll (site.reach p b).1 (site.reach p b).2 ds')) :
    SeenIn V o o' (walkAll p b (site.fill ds)) (walkAll p b (site.fill ds')) := by
  -- behind the place both walks go on in a scope that is the same on both sides
  have hafter {b c c' : Draft} {p : ScopeId} (H : b.model.Inv) (hp : b.model.Outer p)
      (hpmap : V.map p = p) (after : List Decl) (hrun : Run b c) (h : SeenIn V o o' c c') :
      SeenIn V o o' (walkAll p c after) (walkAll p c' after) := by
    have hall := h.walkAll after (hrun.inv H) (hrun.outer H hp).lt (hsees p)
    rwa [hpmap] at hall
  induction site generalizing b p with
  | here before after =>
    have hrun : Run b (walkAll p b before) := walkAll_run before H hp.lt
    rw [walkAll_fill_here, walkAll_fill_here]
    have hp' := hrun.outer H hp
    exact hafter H hp (hmap p hp'.lt) after (hrun.trans (walkAll_run ds (hrun.inv H) hp'.lt)) h
  | inside before d hd inner after ih =>
    have hrun : Run b (walkAll p b before) := walkAll_run before H hp.lt
    have H' := hrun.inv H
    have hp' := hrun.outer H hp
    have he := enterNamespace_entered H' hp'.lt d
    rw [walkAll_fill_inside, walkAll_fill_inside]
    have hreach : Run b _ := (reach_outer (.inside before d hd inner after) H hp).1
    refine hafter H hp (hmap p (hreach.outer H hp).lt) after ?_
      (ih (he.inv H') (enterNamespace_outer H' hp') hmap h)
    exact (hrun.trans he.run).trans (walkAll_run _ (he.inv H') he.lt)

/-- Two units that differ at one place have models of which one is seen in the other, if this holds of the
drafts behind the place. -/
theorem mirrored {u u' : CompilationUnit} (site : Site) (hfile : u'.file = u.file)
    (hu : u.topLevel = site.fill ds) (hu' : u'.topLevel = site.fill ds')
    (hr : site.reach Model.root (start u.file) = (p, b)) (hmap : ∀ i < b.next, V.map i = i)
    (C : V.Complete (walkAll p b ds).model) (h : SeenIn V o o' (walkAll p b ds) (walkAll p b ds'))
    (huses : o'.model.uses = o.model.uses.map (·.moved V.map)) (hdeferred : o'.deferred = o.deferred) :
    u.model.Mirrored V u'.model ∧ u'.model.uses = u.model.uses.map (·.moved V.map) := by
  have H := start_inv u.file
  have hroot := start_outer u.file
  obtain ⟨hreach, houter⟩ := site.reach_outer H hroot
  have hfill : Run _ (walkAll Model.root (start u.file) (site.fill ds)) := site.walkAll_fill_run H hroot
  rw [hr] at hreach houter hfill
  have H' := hreach.inv H
  have hseen : SeenIn V o o' (walkAll Model.root (start u.file) u.topLevel)
      (walkAll Model.root (start u'.file) u'.topLevel) := by
    rw [hfile, hu, hu']
    apply site.walkAll_fill_seen H hroot _ C.sees
    · rwa [hr]
    · rwa [hr]
  have C' := hfill.complete ((walkAll_run ds H' houter.lt).inv H') C
  rw [← hu] at C'
  obtain ⟨M, ⟨new, hnew, hnew'⟩, _⟩ := CompilationUnit.mirrored hseen C' hdeferred
  refine ⟨M, ?_⟩
  rw [hnew', hnew, huses, List.map_append]

end Site

/-! ### Numbering with a gap -/

/-- The numbers from `k` on, moved up by `n`. -/
def shift (k n i : Nat) : Nat :=
  if i < k then i else i + n

theorem shift_of_lt (h : i < k) : shift k n i = i :=
  if_pos h

theorem shift_add (k n j : Nat) : shift k n (k + j) = k + n + j := by
  rw [shift, if_neg (Nat.not_lt.mpr (Nat.le_add_right k j))]
  omega

theorem shift_strictMono (k n : Nat) : StrictMono (shift k n) := by
  intro i j hij
  unfold shift
  split <;> split <;> omega

/-! ### Declarations beside the classes -/

/-- A declaration that has a name and nothing more to say: a variable or type without uses, or a function
without id, owner, members and uses. -/
inductive Decl.Inert : Decl → Prop
  | namedVariable : NodeKind.ofText? d.kind = some .variableNode → d.name ≠ "" → d.uses = [] →
      Inert (.node d members)
  | namedType : NodeKind.ofText? d.kind = some .typeNode → d.name ≠ "" → d.uses = [] →
      Inert (.node d members)
  | bareFunction : NodeKind.ofText? d.kind = some .functionNode → d.id = "" → d.owner = "" →
      d.uses = [] → Inert (.node d [])

namespace Draft

variable {b b' b'' : Draft} {p : ScopeId} {name : String}

/-- Nothing of what was there changes, except that scope `p` may declare `name` once more. -/
structure Adds (p : ScopeId) (name : String) (b b' : Draft) : Prop where
  run : Run b b'
  quiet : Quiet b b'
  scope : ∀ {i}, i < b.next → (b.model.scope i).SameText (b'.model.scope i)
  declared : ∀ {i n}, i < b.next → ∃ extra, b'.model.declared i n = b.model.declared i n ++ extra ∧
    ∀ e ∈ extra, (i = p ∧ n = name) ∧ e.kind.opens? = none ∧ e.kind ≠ .templateParam
  lookup : ∀ id, b'.model.ids.lookup id = b.model.ids.lookup id

theorem Adds.trans (h : Adds p name b b') (h' : Adds p name b' b'') : Adds p name b b'' where
  run := h.run.trans h'.run
  quiet := h.quiet.trans h'.quiet
  scope := fun hi => (h.scope hi).trans (h'.scope (Nat.lt_of_lt_of_le hi h.run.next_le))
  declared := fun {i n} hi => by
    obtain ⟨extra, heq, hextra⟩ := h.declared (n := n) hi
    obtain ⟨extra', heq', hextra'⟩ := h'.declared (n := n) (Nat.lt_of_lt_of_le hi h.run.next_le)
    refine ⟨extra ++ extra', by rw [heq', heq, List.append_assoc], fun e he => ?_⟩
    rcases List.mem_append.mp he with he | he
    · exact hextra e he
    · exact hextra' e he
  lookup := fun id => (h'.lookup id).trans (h.lookup id)

theorem Adds.declare (hp : p < b.next) (hk : kind.opens? = none) (hparam : kind ≠ .templateParam) :
    Adds p name b (b.declare p name kind loc static injected defines) where
  run := declare_run hp hk
  quiet := declare_quiet
  scope := fun {i} _ => by
    rw [declare_scope hp]
    split
    · next hi => subst hi; exact ⟨rfl, rfl, Option.map_id'.symm, rfl, rfl, rfl, rfl⟩
    · exact .rfl
  declared := fun {i n} _ => by
    simp only [Model.declared, declare_find]
    split
    · next hin =>
      refine ⟨_, rfl, fun e he => ?_⟩
      rw [List.mem_singleton.mp he]
      exact ⟨hin, hk, hparam⟩
    · exact ⟨[], (List.append_nil _).symm, List.forall_mem_nil _⟩
  lookup := fun _ => rfl

theorem Adds.openScope (hp : p < b.next) (hk : k ≠ .classScope) (hid : d.id = "") :
    Adds p name b (b.openScope p k d) where
  run := .single (.openScope hp hk)
  quiet := openScope_quiet
  scope := fun {i} hi => by
    rw [openScope_scope hp, if_neg (Nat.ne_of_lt hi)]
    split
    · next hip => subst hip; exact ⟨rfl, rfl, Option.map_id'.symm, rfl, rfl, rfl, rfl⟩
    · exact .rfl
  declared := fun {i n} _ => by
    simp only [Model.declared, openScope_index]
    exact ⟨[], (List.append_nil _).symm, List.forall_mem_nil _⟩
  lookup := fun id => by rw [openScope_ids, register_ids, if_pos (.inl hid)]

/-- What is done inside a new scope leaves the old ones alone. -/
theorem Adds.changesIn (h : Adds p name b b') (H : b.model.Inv) (hs : b.next ≤ s)
    (h' : ChangesIn [] s b' b'') (hquiet : Quiet b' b'') : Adds p name b b'' := by
  have hlt {i} (hi : i < b.next) : i < b'.next := Nat.lt_of_lt_of_le hi h.run.next_le
  have hscope {i} (hi : i < b.next) : b''.model.scope i = b'.model.scope i := by
    refine h'.scope_eq (hlt hi) fun his => Nat.not_lt.mpr hs ?_
    exact Nat.lt_of_le_of_lt ((h.run.inv H).within_le his) hi
  refine ⟨h.run.trans h'.run, h.quiet.trans hquiet, fun hi => ?_, fun {i n} hi => ?_, fun id => ?_⟩
  · rw [hscope hi]
    exact h.scope hi
  · rw [declared_eq_of_scope_eq (h.run.inv H) (h'.run.inv (h.run.inv H)) (hscope hi)]
    exact h.declared hi
  · rw [h'.lookup_eq (fun x hx => nomatch hx), h.lookup]

theorem Quiet.foldl {f : Draft → α → Draft} (hf : ∀ b a, Quiet b (f b a)) (l : List α) :
    Quiet b (l.foldl f b) := by
  induction l generalizing b with
  | nil => exact ⟨rfl, rfl, rfl, rfl⟩
  | cons a l ih => exact (hf b a).trans ih

/-- The parameters of a function are declared in the scope that it opens. -/
theorem Adds.enterBody (H : b.model.Inv) (hp : p < b.next) (hk : k ≠ .classScope) (hid : d.id = "") :
    Adds p name b (b.enterBody p k d).2 := by
  have hopen : Adds p name b (b.openScope p k d) := .openScope hp hk hid
  simp only [Draft.enterBody]
  split
  · refine hopen.changesIn (s := b.next) H (Nat.le_refl _) ?_ (.foldl (fun _ _ => declare_quiet) _)
    exact .foldl (fun _ _ hs => .declare hs rfl) (hopen.run.inv H) (openScope_next ▸ Nat.lt_succ_self _) _
  · exact hopen

theorem walk_inert (H : b.model.Inv) (hp : p < b.next) (hx : x.Inert) :
    ∃ name ∈ x.name?, Adds p name b (walk p b x) := by
  cases hx with
  | @namedVariable d members hk hname huses =>
    have hwalk : walk p b (.node d members) = b.declare p d.name .variableName d.loc d.static := by
      simp only [walk, hk, hname, huses, if_false]
      rfl
    exact ⟨d.name, rfl, hwalk ▸ .declare hp rfl (by decide)⟩
  | @namedType d members hk hname huses =>
    have hwalk : walk p b (.node d members) = b.declare p d.name .typeName d.loc d.static := by
      simp only [walk, hk, hname, huses, if_false]
      rfl
    exact ⟨d.name, rfl, hwalk ▸ .declare hp rfl (by decide)⟩
  | @bareFunction d hk hid howner huses =>
    have hwalk : walk p b (.node d []) = ((b.declare p d.name .functionName d.loc d.static false
        (some b.next)).enterBody p .functionScope d).2 := by
      simp only [walk, hk, howner, huses, ne_eq, not_true_eq_false, if_false]
      rfl
    have hdecl : Adds p d.name b (b.declare p d.name .functionName d.loc d.static false
        (some b.next)) := .declare hp rfl (by decide)
    refine ⟨d.name, rfl, hwalk ▸ hdecl.trans (.enterBody (hdecl.run.inv H) ?_ (by decide) hid)⟩
    exact Nat.lt_of_lt_of_eq hp declare_next.symm

end Draft

/-- The view of a draft in one that has `n` scopes more behind scope `k` and may declare `name` in scope `p`
once more. -/
def View.inserting (k n : Nat) (p : ScopeId) (name : String) : View where
  map := shift k n
  injective := (shift_strictMono k n).injective
  noisy := fun i m => i = p ∧ m = name

theorem Draft.Adds.seen {b b' : Draft} (h : Adds p name b b') (H : b.model.Inv) :
    SeenIn (.inserting b.next (b'.next - b.next) p name) b b' b b' := by
  have hle := h.run.next_le
  refine .of_fixed H (h.run.inv H) (fun i hi => shift_of_lt hi) hle (fun j => ?_) (fun _ => trivial)
    (fun _ _ => trivial) h.quiet.file (fun hi _ => h.scope hi) (fun hi _ => ?_) (fun _ => h.lookup _)
  · simp only [View.inserting, shift_add, Nat.add_sub_cancel' hle]
  · obtain ⟨extra, heq, hextra⟩ := h.declared hi
    refine ⟨extra, heq, fun e he => ?_⟩
    obtain ⟨hnoisy, hopens, hparam⟩ := hextra e he
    exact ⟨hnoisy, hopens, hparam⟩

/-- One model inside another: the scopes keep their text and their places under `f`, and the ids their
meaning. -/
structure Model.EmbedsIn (f : ScopeId → ScopeId) (m m' : Model) : Prop where
  injective : Function.Injective f
  root : f Model.root = Model.root
  scope : ∀ i, (m.scope i).SameIn f (m'.scope (f i))
  byId : ∀ id, m'.byId? id = (m.byId? id).map f

theorem Model.Mirrored.embedsIn {V : View} {m m' : Model} (M : m.Mirrored V m') :
    m.EmbedsIn V.map m' where
  injective := V.injective
  root := M.complete.root
  scope := M.sameScope
  byId := fun id => M.byId?_eq (M.complete.knows id)

/-- **What is declared beside the classes influences no verdict.** A named variable or type without uses, or a
function without id, owner, members and uses, may be put anywhere among the declarations of the unit or of a
namespace that lies in namespaces only. Every finding keeps its use, verdict, reason, qualification, class and
base; at most, a name that was not found is found in a namespace. -/
theorem CompilationUnit.findings_insert_inert {u u' : CompilationUnit} {x : Decl} (site : Site)
    (hx : x.Inert) (hfile : u'.file = u.file) (hu : u.topLevel = site.fill [])
    (hu' : u'.topLevel = site.fill [x]) :
    ∃ f : ScopeId → ScopeId, StrictMono f ∧ u.model.EmbedsIn f u'.model ∧
      ∀ policy follow, List.Forall₂ (fun g g' => g.SameUnder f g' ∧
          (g'.resolution.text = g.resolution.text ∨
            g.use.name ∈ x.name? ∧ g.resolution = .notFound ∧ ∃ d, g'.resolution = .enclosing d))
        (u.model.findings policy follow) (u'.model.findings policy follow) := by
  obtain ⟨p, b, hr, H, houter⟩ := site.exists_reach u.file
  obtain ⟨name, hname, hadds⟩ := Draft.walk_inert H houter.lt hx
  have C : (View.inserting b.next ((Draft.walk p b x).next - b.next) p name).Complete b.model := by
    refine ⟨shift_of_lt H.size_pos, fun _ _ => trivial, fun _ => trivial, ?_, fun h => absurd trivial h⟩
    rintro i n ⟨rfl, rfl⟩
    exact houter
  have huses : (Draft.walk p b x).model.uses = b.model.uses.map
      (·.moved (shift b.next ((Draft.walk p b x).next - b.next))) := by
    rw [hadds.quiet.uses, Draft.SeenIn.uses_moved_of_fixed H fun i hi => shift_of_lt hi]
  obtain ⟨M, hmoved⟩ := site.mirrored hfile hu hu' hr (fun i hi => shift_of_lt hi) C (hadds.seen H) huses
    hadds.quiet.deferred
  refine ⟨_, shift_strictMono _ _, M.embedsIn, fun policy follow => ?_⟩
  refine (M.findings_same hmoved policy follow).imp fun g g' hg => ⟨hg.toSameUnder, ?_⟩
  rcases hg.resolution with htext | ⟨⟨_, _, rfl⟩, hnot, hfound⟩
  · exact .inl htext
  · exact .inr ⟨hname, hnot, hfound⟩

/-- A class template `B`, with a member `x`. -/
def sampleBase : DeclInfo where
  kind := "class"
  id := "B"
  name := "B"
  template := true
  templateParams := ["T"]

def sampleBaseMembers : List Decl :=
  [.node { kind := "variable", name := "x" } []]

/-- A class template that derives from `B<T>` and uses `x`. -/
def sampleDerived : Decl :=
  .node { kind := "class", id := "D", name := "D", template := true, templateParams := ["T"],
          bases := [some { type := .node { name := "B", ref := "B" } [.node { name := "T" } []] }] }
    [.node { kind := "function", name := "f", uses := [some { name := "x" }] } []]

/-- A unit that has both inside a namespace, with `ds` before them. -/
def sampleUnit (ds : List Decl) : CompilationUnit where
  file := "a.cpp"
  decls := some [.node { kind := "namespace", name := "N" }
    (ds ++ [.node sampleBase sampleBaseMembers, sampleDerived])]

def sampleFunction : Decl :=
  .node { kind := "function", name := "x" } []

theorem findings_insert_inert_sample :
    sampleFunction.Inert ∧
    ((sampleUnit []).model.findings .lenient false).map (fun g => (g.verdict, g.resolution.text)) =
      [(.nonCompliant, "not found")] ∧
    ((sampleUnit [sampleFunction]).model.findings .lenient false).map (·.resolution.text) =
      ["namespace"] ∧
    ((sampleUnit [sampleFunction]).model.findings .lenient false).map (·.verdict) =
      ((sampleUnit []).model.findings .lenient false).map (·.verdict) := by
  have hx : sampleFunction.Inert := .bareFunction rfl rfl rfl rfl
  have hfile : (sampleUnit [sampleFunction]).file = (sampleUnit []).file := rfl
  obtain ⟨f, _, _, hsame⟩ := CompilationUnit.findings_insert_inert
    (.inside [] { kind := "namespace", name := "N" } rfl
      (.here [] [.node sampleBase sampleBaseMembers, sampleDerived]) []) hx hfile rfl rfl
  exact ⟨hx, by decide +kernel, by decide +kernel,
    Finding.map_verdict_eq (hsame .lenient false) fun hg => hg.1.verdict⟩

end TwoPhase
