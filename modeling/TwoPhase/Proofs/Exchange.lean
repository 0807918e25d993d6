import TwoPhase.Proofs.Insertion

/-!
# The order of independent declarations

Two declarations next to each other that differ in name, share no id and hold no function of a class outside
them can change places. Either one is built as if the other were not there, only with other numbers for its
scopes; so the two drafts behind them agree up to an exchange of two blocks of scopes, and the rest of the unit
and every lookup go the same way on both.
-/

namespace TwoPhase

/-- Declarations that have nothing to do with each other. -/
structure Decl.Independent (a c : Decl) : Prop where
  name_ne : a.name? ≠ c.name?
  ids_apart : ∀ x ∈ a.nodes, ∀ y ∈ c.nodes, x.id = y.id → x.id = ""
  owner_left : ∀ x ∈ a.nodes, x.owner = ""
  owner_right : ∀ y ∈ c.nodes, y.owner = ""

/-! ### Exchanging two blocks of numbers -/

/-- From `k` on, a block of `m` numbers changes places with the `n` numbers behind it. -/
def exchange (k m n i : Nat) : Nat :=
  if i < k then i else if i < k + m then i + n else if i < k + m + n then i - m else i

theorem exchange_exchange (k m n i : Nat) : exchange k n m (exchange k m n i) = i := by
  unfold exchange
  split_ifs <;> omega

/-- The first block moves up. -/
theorem exchange_of_lt (h : i < k + m) : exchange k m n i = shift k n i := by
  unfold exchange shift
  split_ifs <;> omega

theorem exchange_of_le (h : k + m + n ≤ i) : exchange k m n i = i := by
  unfold exchange
  split_ifs <;> omega

theorem exchange_lt (h : i < k + m + n) : exchange k m n i < k + m + n := by
  unfold exchange
  split_ifs <;> omega

/-- The second block moves down. -/
theorem exchange_sub (h : k + m ≤ i) (hi : i < k + m + n) :
    k ≤ i - m ∧ i - m < k + n ∧ exchange k n m (i - m) = i := by
  refine ⟨by omega, by omega, ?_⟩
  unfold exchange
  split_ifs <;> omega

/-- The view of a model in one where two blocks of scopes have changed places. -/
def View.exchanging (k m n : Nat) : View where
  map := exchange k m n
  injective := Function.LeftInverse.injective (exchange_exchange k m n)

/-! ### What a node leaves alone -/

/-- Scope `i` lies in children of one name only. -/
theorem Model.Under.name_unique {m : Model} (H : m.Inv) (h : m.Under p name i) (h' : m.Under p name' i) :
    name = name' := by
  obtain ⟨s, his, hparent, rfl⟩ := h
  obtain ⟨s', his', hparent', rfl⟩ := h'
  have hout {s s'} (hparent : (m.scope s).parent = some p) (hparent' : (m.scope s').parent = some p)
      (h : m.Within s s') : s = s' := by
    rcases h.eq_or_parent with rfl | ⟨q, hq, hqs⟩
    · rfl
    · cases hparent.symm.trans hq
      exact absurd (H.parent_lt hparent') (Nat.not_lt.mpr (H.within_le hqs))
  rcases his.total his' with h | h
  · rw [hout hparent hparent' h]
  · rw [hout hparent' hparent h]

/-- The view of a draft `b` in a draft `b'` that a node at global scope has led to: what lies under the name of
the node, and the ids that it registers, are not in view. -/
def View.beside (name : String) (nodes : List DeclInfo) (b b' : Draft) : View where
  map := shift b.next (b'.next - b.next)
  injective := (shift_strictMono _ _).injective
  sees := fun i n => b.next ≤ i ∨ i = Model.root ∧ n ≠ name ∨
    i ≠ Model.root ∧ ¬ b.model.Under Model.root name i
  knows := fun id => ∀ x ∈ nodes, x.id = id → id = ""

namespace Draft

variable {b b' : Draft} {name : String} {nodes : List DeclInfo}

/-- What is in view is so with all that lies in it. -/
theorem beside_closed (H : b.model.Inv) (hparent : (b.model.scope s).parent = some i)
    (hsees : (View.beside name nodes b b').sees i (b.model.scope s).name) (n : String) :
    (View.beside name nodes b b').sees s n := by
  have hs : s < b.next := Model.lt_size_of_parent hparent
  have his := H.parent_lt hparent
  have hroot : s ≠ Model.root := Nat.ne_of_gt (Nat.lt_of_le_of_lt (Nat.zero_le i) his)
  refine .inr (.inr ⟨hroot, fun hunder => ?_⟩)
  rcases hsees with hge | ⟨rfl, hne⟩ | ⟨hne, hnot⟩
  · exact absurd (Nat.lt_trans his hs) (Nat.not_lt.mpr hge)
  · exact hne (Model.Under.name_unique H ⟨s, .refl, hparent, rfl⟩ hunder)
  · obtain ⟨r, hsr, hr, hname⟩ := hunder
    rcases hsr.eq_or_parent with rfl | ⟨q, hq, hqr⟩
    · exact hne (Option.some.inj (hparent.symm.trans hr))
    · cases hparent.symm.trans hq
      exact hnot ⟨r, hqr, hr, hname⟩

/-- What is in view stays as it is. -/
theorem ChangesAt.kept (h : ChangesAt nodes Model.root name b b') (H : b.model.Inv) (hi : i < b.next)
    (hsees : i = Model.root ∧ n ≠ name ∨ i ≠ Model.root ∧ ¬ b.model.Under Model.root name i) :
    (b.model.scope i).SameText (b'.model.scope i) ∧
      b'.model.declared i n = b.model.declared i n := by
  rcases hsees with ⟨rfl, hne⟩ | ⟨hne, hnot⟩
  · exact ⟨h.parent_same, h.declared_eq hne⟩
  · have hscope := h.scope_eq hi hne hnot
    exact ⟨hscope ▸ .rfl, declared_eq_of_scope_eq H (h.run.inv H) hscope n⟩

theorem ChangesAt.seen (h : ChangesAt nodes Model.root name b b') (H : b.model.Inv) :
    SeenIn (.beside name nodes b b') b b' b b' := by
  have hle := h.run.next_le
  have hkept {i n} (hi : i < b.next) (hsees : (View.beside name nodes b b').sees i n) :=
    h.kept H hi (hsees.resolve_left (Nat.not_le.mpr hi))
  refine .of_fixed H (h.run.inv H) (fun i hi => shift_of_lt hi) hle (fun j => ?_) (fun hi => .inl hi)
    (fun hparent hsees => beside_closed H hparent hsees _) h.run.file_eq (fun hi hsees => (hkept hi hsees).1)
    (fun hi hsees => ⟨[], ?_, fun _ he => nomatch he⟩) (fun hid => h.lookup_eq hid)
  · simp only [View.beside, shift_add, Nat.add_sub_cancel' hle]
  · rw [List.append_nil, (hkept hi hsees).2]

/-! ### Two nodes in either order -/

/-- Nodes `a` and `c` walked one after the other in both orders: what each changes, and that each walk goes the
same way before and behind the other. -/
structure Diamond (a c : Decl) (na nc : String) (b bA bC bAC bCA : Draft) : Prop where
  inv : b.model.Inv
  ne : na ≠ nc
  ids_apart : ∀ x ∈ a.nodes, ∀ y ∈ c.nodes, x.id = y.id → x.id = ""
  first : ChangesAt a.nodes Model.root na b bA
  first' : ChangesAt c.nodes Model.root nc b bC
  second : ChangesAt c.nodes Model.root nc bA bAC
  second' : ChangesAt a.nodes Model.root na bC bCA
  seen : SeenIn (.beside nc c.nodes b bC) b bC bA bCA
  seen' : SeenIn (.beside na a.nodes b bA) b bA bC bAC

variable {a c : Decl} {na nc : String} {bA bC bAC bCA : Draft}

theorem Diamond.symm (D : Diamond a c na nc b bA bC bAC bCA) : Diamond c a nc na b bC bA bCA bAC where
  inv := D.inv
  ne := D.ne.symm
  ids_apart := fun y hy x hx heq => heq.trans (D.ids_apart x hx y hy heq.symm)
  first := D.first'
  first' := D.first
  second := D.second'
  second' := D.second
  seen := D.seen'
  seen' := D.seen

/-- A walk over a node goes the same way behind what another node has changed. -/
theorem ChangesAt.seen_walk (h : ChangesAt nodes Model.root name b b') (H : b.model.Inv) (d : Decl)
    (hd : ∀ n ∈ d.name?, n ≠ name) :
    SeenIn (.beside name nodes b b') b b' (walk Model.root b d) (walk Model.root b' d) := by
  have hlt : Model.root < b.next := H.size_pos
  have hwalk := (h.seen H).walk d H hlt fun n hn => .inr (.inl ⟨rfl, hd n hn⟩)
  have hroot : (View.beside name nodes b b').map Model.root = Model.root := shift_of_lt hlt
  rwa [hroot] at hwalk

/-- Two nodes of which one may be missing have names that differ. -/
theorem exists_names {x y : Option String} (h : x ≠ y) :
    ∃ m n : String, m ≠ n ∧ (∀ z ∈ x, z = m) ∧ ∀ z ∈ y, z = n := by
  have hother (n : String) : ∃ m : String, m ≠ n := by
    by_cases hn : n = ""
    · exact ⟨"x", by rw [hn]; decide⟩
    · exact ⟨"", Ne.symm hn⟩
  cases x with
  | none =>
    cases y with
    | none => exact absurd rfl h
    | some n =>
      obtain ⟨m, hm⟩ := hother n
      exact ⟨m, n, hm, fun z hz => absurd hz (Option.not_mem_none z), fun z hz => (Option.some.inj hz).symm⟩
  | some m =>
    cases y with
    | none =>
      obtain ⟨n, hn⟩ := hother m
      exact ⟨m, n, hn.symm, fun z hz => (Option.some.inj hz).symm,
        fun z hz => absurd hz (Option.not_mem_none z)⟩
    | some n =>
      exact ⟨m, n, fun hmn => h (hmn ▸ rfl), fun z hz => (Option.some.inj hz).symm,
        fun z hz => (Option.some.inj hz).symm⟩

theorem exists_diamond (hac : a.Independent c) (H : b.model.Inv) : ∃ na nc, Diamond a c na nc b
    (walk Model.root b a) (walk Model.root b c) (walk Model.root (walk Model.root b a) c)
    (walk Model.root (walk Model.root b c) a) := by
  obtain ⟨na, nc, hne, hna, hnc⟩ := exists_names hac.name_ne
  have hfirst := walk_changesAt a H H.size_pos hna hac.owner_left
  have hfirst' := walk_changesAt c H H.size_pos hnc hac.owner_right
  have HA := hfirst.run.inv H
  have HC := hfirst'.run.inv H
  exact ⟨na, nc, H, hne, hac.ids_apart, hfirst, hfirst',
    walk_changesAt c HA HA.size_pos hnc hac.owner_right,
    walk_changesAt a HC HC.size_pos hna hac.owner_left,
    hfirst'.seen_walk H a fun n hn => hna n hn ▸ hne,
    hfirst.seen_walk H c fun n hn => hnc n hn ▸ hne.symm⟩

namespace Diamond

/-- The exchange of the scopes of the two nodes. -/
abbrev view (_ : Diamond a c na nc b bA bC bAC bCA) : View :=
  .exchanging b.next (bA.next - b.next) (bC.next - b.next)

theorem lt_add (D : Diamond a c na nc b bA bC bAC bCA) (hi : i < bA.next) :
    i < b.next + (bA.next - b.next) := by
  rwa [Nat.add_sub_cancel' D.first.run.next_le]

/-- On the scopes of the first node, the exchange does what the view behind the second node does. -/
theorem map_eq (D : Diamond a c na nc b bA bC bAC bCA) (hi : i < bA.next) :
    D.view.map i = (View.beside nc c.nodes b bC).map i :=
  exchange_of_lt (D.lt_add hi)

theorem map_map (D : Diamond a c na nc b bA bC bAC bCA) (i : ScopeId) :
    D.symm.view.map (D.view.map i) = i :=
  exchange_exchange _ _ _ i

theorem map_root (D : Diamond a c na nc b bA bC bAC bCA) : D.view.map Model.root = Model.root := by
  have hlt : Model.root < bA.next := (D.first.run.inv D.inv).size_pos
  rw [D.map_eq hlt]
  exact shift_of_lt D.inv.size_pos

theorem next_eq (D : Diamond a c na nc b bA bC bAC bCA) :
    bCA.next = b.next + (bA.next - b.next) + (bC.next - b.next) := by
  have hmap : shift b.next (bC.next - b.next) bA.next = bCA.next := D.seen.map_next
  rw [← hmap, Nat.add_sub_cancel' D.first.run.next_le, shift,
    if_neg (Nat.not_lt.mpr D.first.run.next_le)]

/-- The two orders agree on scope `i` and its declarations of `n`. -/
structure AgreeAt (V : View) (m m' : Model) (i : ScopeId) (n : String) : Prop where
  scope : (m.scope i).SameIn V.map (m'.scope (V.map i))
  declared : List.Forall₂ (Declaration.SameIn V i) (m.declared i n) (m'.declared (V.map i) n)

theorem AgreeAt.symm {V V' : View} {m m' : Model} (h : AgreeAt V m m' i n)
    (hV : ∀ i, V'.map (V.map i) = i) (hlocated : V.located i) : AgreeAt V' m' m (V.map i) n := by
  have hmap (x : Option ScopeId) : x = (x.map V.map).map V'.map := by
    cases x with
    | none => rfl
    | some j => rw [Option.map_some, Option.map_some, hV]
  obtain ⟨⟨hkind, hname, hparent, hbases, htemplate, hparams, hdefined⟩, hdeclared⟩ := h
  refine ⟨?_, ?_⟩
  · rw [hV]
    refine ⟨hkind.symm, hname.symm, ?_, hbases.symm, htemplate.symm, hparams.symm, hdefined.symm⟩
    rw [hparent, ← hmap]
  · rw [hV]
    refine hdeclared.flip.imp fun d' d hd => ⟨hd.kind.symm, hd.injected.symm, fun hopens => ?_,
      fun _ => (hd.loc hlocated).symm⟩
    rw [hd.defines (hd.kind ▸ hopens), ← hmap]

/-- Behind the first node too, the second one leaves alone what it would leave alone before it. -/
theorem kept (D : Diamond a c na nc b bA bC bAC bCA) (hi : i < bA.next)
    (hsees : (View.beside nc c.nodes b bC).sees i n) :
    (bA.model.scope i).SameText (bAC.model.scope i) ∧
      bAC.model.declared i n = bA.model.declared i n := by
  have HA := D.first.run.inv D.inv
  refine D.second.kept HA hi ?_
  rcases Nat.lt_or_ge i b.next with hlt | hge
  · rcases hsees.resolve_left (Nat.not_le.mpr hlt) with hroot | ⟨hne, hnot⟩
    · exact .inl hroot
    · exact .inr ⟨hne, fun hunder => hnot ((D.first.run.under_iff D.inv hlt).mp hunder)⟩
  · -- a new scope lies under the name of the first node
    have hne : i ≠ Model.root := Nat.ne_of_gt (Nat.lt_of_lt_of_le D.inv.size_pos hge)
    exact .inr ⟨hne, fun hunder => D.ne (Model.Under.name_unique HA (D.first.under hge hi) hunder)⟩

/-- In the scopes of the first node, and wherever the second node changes nothing, both orders agree. -/
theorem agreeAt (D : Diamond a c na nc b bA bC bAC bCA) (hi : i < bA.next)
    (hsees : (View.beside nc c.nodes b bC).sees i n) : AgreeAt D.view bAC.model bCA.model i n := by
  have HA := D.first.run.inv D.inv
  obtain ⟨⟨hkind, hname, hparent, hbases, htemplate, hparams, hdefined⟩, hdeclared⟩ := D.kept hi hsees
  have hscope := D.seen.scope hsees
  have hsame := (D.seen.declared hsees).forall₂ fun d hd => hd.noisy
  rw [← D.map_eq hi] at hscope hsame
  refine ⟨?_, ?_⟩
  · refine ⟨hscope.kind.trans hkind.symm, hscope.name.trans hname.symm, ?_,
      hscope.bases.trans hbases.symm, hscope.isTemplate.trans htemplate.symm,
      hscope.templateParams.trans hparams.symm, hscope.defined.trans hdefined.symm⟩
    rw [hscope.parent, hparent, Option.map_id']
    cases hp : (bA.model.scope i).parent with
    | none => rfl
    | some p =>
      rw [Option.map_some, Option.map_some, D.map_eq (Nat.lt_trans (HA.parent_lt hp) hi)]
  · rw [hdeclared]
    have hmem := (List.forall₂_and_left _ _).mpr ⟨fun d (hd : d ∈ bA.model.declared i n) => hd, hsame⟩
    refine hmem.imp fun d d' ⟨hd, hdd'⟩ =>
      ⟨hdd'.kind, hdd'.injected, fun hopens => ?_, fun _ => hdd'.loc trivial⟩
    obtain ⟨k, hk⟩ := Option.ne_none_iff_exists'.mp hopens
    obtain ⟨s, hs, hparent, _⟩ := HA.opens_declared hd hk
    rw [hdd'.defines hopens, hs, Option.map_some, Option.map_some,
      D.map_eq (Model.lt_size_of_parent hparent)]

/-- Every scope is left alone by one of the nodes, under every name. -/
theorem cover (D : Diamond a c na nc b bA bC bAC bCA) (hi : i < bAC.next) (n : String) :
    (i < bA.next ∧ (View.beside nc c.nodes b bC).sees i n) ∨
      ∃ j < bC.next, D.symm.view.map j = i ∧ (View.beside na a.nodes b bA).sees j n := by
  rcases Nat.lt_or_ge i b.next with hlt | hge
  · have hiA : i < bA.next := Nat.lt_of_lt_of_le hlt D.first.run.next_le
    have hiC : i < bC.next := Nat.lt_of_lt_of_le hlt D.first'.run.next_le
    have hfixed : D.symm.view.map i = i := by
      rw [D.symm.map_eq hiC]
      exact shift_of_lt hlt
    by_cases hroot : i = Model.root
    · by_cases hn : n = nc
      · exact .inr ⟨i, hiC, hfixed, .inr (.inl ⟨hroot, hn ▸ D.ne.symm⟩)⟩
      · exact .inl ⟨hiA, .inr (.inl ⟨hroot, hn⟩)⟩
    · by_cases hunder : b.model.Under Model.root nc i
      · exact .inr ⟨i, hiC, hfixed, .inr (.inr ⟨hroot, fun hunder' =>
          D.ne (Model.Under.name_unique D.inv hunder' hunder)⟩)⟩
      · exact .inl ⟨hiA, .inr (.inr ⟨hroot, hunder⟩)⟩
  · rcases Nat.lt_or_ge i bA.next with hiA | hgeA
    · exact .inl ⟨hiA, .inl hge⟩
    · -- the scopes behind those of `a` are those of `c`, moved up
      have hlow : b.next + (bA.next - b.next) ≤ i := by rwa [Nat.add_sub_cancel' D.first.run.next_le]
      have hhigh : i < b.next + (bA.next - b.next) + (bC.next - b.next) := by
        rwa [Nat.add_right_comm, ← D.symm.next_eq]
      obtain ⟨hle, hlt, heq⟩ := exchange_sub hlow hhigh
      rw [Nat.add_sub_cancel' D.first'.run.next_le] at hlt
      exact .inr ⟨_, hlt, heq, .inl hle⟩

theorem agree (D : Diamond a c na nc b bA bC bAC bCA) (i : ScopeId) (n : String) :
    AgreeAt D.view bAC.model bCA.model i n := by
  rcases Nat.lt_or_ge i bAC.next with hi | hi
  · rcases D.cover hi n with ⟨hiA, hsees⟩ | ⟨j, hj, rfl, hsees⟩
    · exact D.agreeAt hiA hsees
    · exact (D.symm.agreeAt hj hsees).symm D.symm.map_map trivial
  · -- beyond both blocks there are only blank scopes
    have hfixed : D.view.map i = i := exchange_of_le (by rwa [Nat.add_right_comm, ← D.symm.next_eq])
    have hi' : bCA.next ≤ i := by rwa [D.next_eq, Nat.add_right_comm, ← D.symm.next_eq]
    have HAC := D.second.run.inv (D.first.run.inv D.inv)
    have HCA := D.second'.run.inv (D.first'.run.inv D.inv)
    refine ⟨?_, ?_⟩
    · rw [hfixed, Model.scope_of_size_le hi, Model.scope_of_size_le hi']
      exact ⟨rfl, rfl, rfl, rfl, rfl, rfl, rfl⟩
    · rw [hfixed, Model.declared, HAC.find_eq, Model.scope_of_size_le hi, Model.declared, HCA.find_eq,
        Model.scope_of_size_le hi']
      exact .nil

theorem lookup_of_left {id : String} (D : Diamond a c na nc b bA bC bAC bCA)
    (hid : ∀ x ∈ c.nodes, x.id = id → id = "") :
    bCA.model.ids.lookup id = (bAC.model.ids.lookup id).map D.view.map := by
  rw [D.second.lookup_eq hid, D.seen.lookup hid]
  cases hfound : bA.model.ids.lookup id with
  | none => rfl
  | some j =>
    rw [Option.map_some, Option.map_some, D.map_eq ((D.first.run.inv D.inv).lookup_lt hfound)]

/-- Every id is registered by one of the nodes at most. -/
theorem lookup_eq (D : Diamond a c na nc b bA bC bAC bCA) (id : String) :
    bCA.model.ids.lookup id = (bAC.model.ids.lookup id).map D.view.map := by
  by_cases hid : ∀ x ∈ c.nodes, x.id = id → id = ""
  · exact D.lookup_of_left hid
  · have hleft : bAC.model.ids.lookup id = (bCA.model.ids.lookup id).map D.symm.view.map := by
      refine D.symm.lookup_of_left fun x hx hxid => ?_
      by_contra hne
      refine hid fun y hy hyid => ?_
      rw [← hxid, D.ids_apart x hx y hy (hxid.trans hyid.symm)]
    rw [hleft, Option.map_map]
    cases bCA.model.ids.lookup id with
    | none => rfl
    | some j => rw [Option.map_some, Function.comp_apply, D.symm.map_map]

theorem next_comm (D : Diamond a c na nc b bA bC bAC bCA) : bAC.next = bCA.next := by
  rw [D.next_eq, D.symm.next_eq, Nat.add_right_comm]

theorem deferred_comm (D : Diamond a c na nc b bA bC bAC bCA) : bCA.deferred = bAC.deferred := by
  rw [D.second'.deferred, D.first'.deferred, D.second.deferred, D.first.deferred]

/-- **Both orders lead to the same draft**, up to the exchange of the scopes. -/
theorem both (D : Diamond a c na nc b bA bC bAC bCA) : SeenIn D.view bAC bCA bAC bCA where
  scope := fun {i n} _ => (D.agree i n).scope
  declared := fun {i n} _ => .of_forall₂ (D.agree i n).declared
  lookup := fun {id} _ => D.lookup_eq id
  file := by
    rw [D.second'.run.file_eq, D.first'.run.file_eq, D.second.run.file_eq, D.first.run.file_eq]
  uses := ⟨[], (List.append_nil _).symm, (List.append_nil _).symm⟩
  skipped := Nat.add_comm _ _
  deferred := ⟨[], (List.append_nil _).symm, (List.append_nil _).symm⟩
  lt := fun hi => by
    rw [D.next_comm, D.next_eq] at hi
    rw [D.next_eq]
    exact exchange_lt hi
  ahead := fun j => by
    rw [D.next_comm]
    refine exchange_of_le ?_
    rw [← D.next_eq]
    exact Nat.le_add_right _ _
  fresh := fun _ => trivial
  closed := fun _ _ => trivial

theorem skipped_comm (D : Diamond a c na nc b bA bC bAC bCA) :
    bCA.model.skipped = bAC.model.skipped := by
  have hleft := D.seen.skipped
  have hright := D.seen'.skipped
  omega

/-- The uses of the two nodes change places with them. -/
theorem uses_perm (D : Diamond a c na nc b bA bC bAC bCA) :
    (bAC.model.uses.map (·.moved D.view.map)).Perm bCA.model.uses := by
  obtain ⟨left, hA, hCA⟩ := D.seen.uses
  obtain ⟨right, hC, hAC⟩ := D.seen'.uses
  have hleft : bA.model.uses.map (·.moved D.view.map) =
      b.model.uses ++ left.map (·.moved (View.beside nc c.nodes b bC).map) := by
    rw [← SeenIn.uses_moved_of_fixed D.inv (f := (View.beside nc c.nodes b bC).map) fun i hi =>
      shift_of_lt hi, ← List.map_append, ← hA]
    refine List.map_congr_left fun u hu => ?_
    have hlt := Model.lt_size_of_kind_ne ((D.first.run.inv D.inv).use_kind hu)
    rw [NameUse.moved, NameUse.moved, D.map_eq hlt]
  have hright : (right.map (·.moved (View.beside na a.nodes b bA).map)).map (·.moved D.view.map) =
      right := by
    rw [List.map_map]
    refine (List.map_congr_left fun u hu => ?_).trans (List.map_id' _)
    have hmem : u ∈ bC.model.uses := hC ▸ List.mem_append_right _ hu
    have hlt := Model.lt_size_of_kind_ne ((D.first'.run.inv D.inv).use_kind hmem)
    simp only [Function.comp_apply, NameUse.moved]
    rw [← D.symm.map_eq hlt, D.symm.map_map]
  rw [hAC, List.map_append, hleft, hright, hCA, hC, List.append_assoc, List.append_assoc]
  exact (List.perm_append_comm).append_left _

end Diamond

end Draft

/-- **The order of independent declarations does not matter.** Two declarations at global scope, one behind the
other, that differ in name, share no id and hold no function of a class outside them may change places: as much
is skipped, and the findings are the same up to their order, with the same uses, verdicts, reasons,
qualifications, kinds of resolution and bases, in the corresponding classes. -/
theorem CompilationUnit.findings_exchange {u u' : CompilationUnit} {a c : Decl} (before after : List Decl)
    (hac : a.Independent c) (hfile : u'.file = u.file) (hu : u.topLevel = before ++ a :: c :: after)
    (hu' : u'.topLevel = before ++ c :: a :: after) :
    u'.model.skipped = u.model.skipped ∧
      ∃ f : ScopeId → ScopeId, Function.Bijective f ∧ u.model.EmbedsIn f u'.model ∧
        ∀ policy follow, ∃ findings, findings.Perm (u'.model.findings policy follow) ∧
          List.Forall₂ (Finding.SameAs f) (u.model.findings policy follow) findings := by
  have H₀ := Draft.start_inv u.file
  have hrun : Draft.Run (Draft.start u.file) (Draft.walkAll Model.root (Draft.start u.file) before) :=
    Draft.walkAll_run before H₀ H₀.size_pos
  have H := hrun.inv H₀
  obtain ⟨na, nc, D⟩ := Draft.exists_diamond hac H
  have HAC := D.second.run.inv (D.first.run.inv H)
  have hlt : Model.root < _ := HAC.size_pos
  have hseen := D.both.walkAll after HAC hlt fun _ => trivial
  have hwalk : Draft.walkAll Model.root (Draft.start u.file) u.topLevel = Draft.walkAll Model.root
      (Draft.walk Model.root (Draft.walk Model.root
        (Draft.walkAll Model.root (Draft.start u.file) before) a) c) after := by
    rw [hu, Draft.walkAll_append]
    rfl
  have hwalk' : Draft.walkAll Model.root (Draft.start u'.file) u'.topLevel = Draft.walkAll Model.root
      (Draft.walk Model.root (Draft.walk Model.root
        (Draft.walkAll Model.root (Draft.start u.file) before) c) a) after := by
    rw [hu', hfile, Draft.walkAll_append]
    rfl
  rw [D.map_root, ← hwalk, ← hwalk'] at hseen
  have C : D.view.Complete (Draft.walkAll Model.root (Draft.start u.file) u.topLevel).model :=
    ⟨D.map_root, fun _ _ => trivial, fun _ => trivial, fun hnoisy => hnoisy.elim, fun h => absurd trivial h⟩
  obtain ⟨M, ⟨new, hnew, hnew'⟩, hskipped⟩ := CompilationUnit.mirrored hseen C D.deferred_comm
  have huses : (u.model.uses.map (·.moved D.view.map)).Perm u'.model.uses := by
    rw [hnew, hnew', List.map_append]
    exact D.uses_perm.append_right _
  refine ⟨?_, D.view.map, ⟨D.view.injective, fun i => ⟨_, D.symm.map_map i⟩⟩, M.embedsIn,
    fun policy follow => ⟨_, huses.filterMap _, ?_⟩⟩
  · rw [D.skipped_comm] at hskipped
    exact (Nat.add_right_cancel hskipped).symm
  · exact (M.judgements_same policy follow u.model.uses).imp fun g g' hg =>
      hg.sameAs fun _ _ hnoisy => hnoisy

/-- A unit that has these declarations at global scope. -/
def sampleOrder (ds : List Decl) : CompilationUnit where
  file := "a.cpp"
  decls := some ds

/-- A class may stand before or behind the one that it derives from. -/
theorem findings_exchange_sample :
    (Decl.node sampleBase sampleBaseMembers).Independent sampleDerived ∧
    ((sampleOrder [.node sampleBase sampleBaseMembers, sampleDerived]).model.findings .lenient false).map
      (·.verdict) = [.nonCompliant] ∧
    ((sampleOrder [sampleDerived, .node sampleBase sampleBaseMembers]).model.findings .lenient false).map
      (·.verdict) = [.nonCompliant] := by
  have hac : (Decl.node sampleBase sampleBaseMembers).Independent sampleDerived :=
    ⟨by decide, by decide, by decide, by decide⟩
  have hverdicts : ((sampleOrder [.node sampleBase sampleBaseMembers, sampleDerived]).model.findings
      .lenient false).map (·.verdict) = [.nonCompliant] := by
    decide +kernel
  have hfile : (sampleOrder [sampleDerived, .node sampleBase sampleBaseMembers]).file =
      (sampleOrder [.node sampleBase sampleBaseMembers, sampleDerived]).file := rfl
  obtain ⟨_, f, _, _, hsame⟩ := CompilationUnit.findings_exchange [] [] hac hfile rfl rfl
  obtain ⟨findings, hperm, hfindings⟩ := hsame .lenient false
  have heq : findings.map (·.verdict) = [.nonCompliant] := by
    rw [← hverdicts]
    exact Finding.map_verdict_eq hfindings fun hg => hg.verdict
  exact ⟨hac, hverdicts, List.perm_singleton.mp ((hperm.map (·.verdict)).symm.trans (.of_eq heq))⟩

end TwoPhase
