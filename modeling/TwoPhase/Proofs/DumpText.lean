import TwoPhase.DumpStore
import TwoPhase.Proofs.LayeredReading
import TwoPhase.Proofs.Utf8

/-!
# Dumps written and read again

`Loc.kept`, `TypeRef.kept`, `Base.kept`, `Use.kept` and `Decl.kept` say of each record of a dump that, once it
has been read from layers of values, what is written for it is read back, and nests no deeper than the layers
did. A position is written even where the dump left it out, which costs one level more; it is there to spend,
since declarations and uses stand at even distances from the greatest depth. Main statement:
`CompilationUnit.decode_written`.
-/

namespace TwoPhase

open Json (Layers named Fit Kept KeptMember)
open Json.Layers (Within)

/-- A position that was read is read back. -/
theorem Loc.kept {vs : Layers} {l : Loc} (h : Loc.ofLayers? vs = some l) (n : Nat) :
    Kept (fun _ => Loc.ofLayers?) (n + 1) l.toJson l := by
  obtain ⟨ms, -, h⟩ := Option.bind_eq_some_iff.mp h
  obtain ⟨file, -, h⟩ := Option.bind_eq_some_iff.mp h
  obtain ⟨line, hline, h⟩ := Option.bind_eq_some_iff.mp h
  obtain ⟨column, hcolumn, h⟩ := Option.bind_eq_some_iff.mp h
  cases h
  have kfile := KeptMember.text (n := n) "file" file
  have kline := KeptMember.present "line" (Kept.int n (Layers.fitsSigned_of_int? hline))
  have kcolumn := KeptMember.int (n := n) "column" (Layers.fitsSigned_of_int? hcolumn)
  refine .object ?_ fun fuel hdepth => ?_
  · simp only [List.forall_mem_append]
    exact ⟨⟨kfile.fit, kline.fit⟩, kcolumn.fit⟩
  · simp only [List.forall_mem_append] at hdepth
    obtain ⟨⟨dfile, dline⟩, dcolumn⟩ := hdepth
    simp only [Loc.ofLayers?, Layers.members?_singleton, Option.bind_eq_bind, Option.bind_some,
      Json.named_append, kfile.named (by decide), kline.named (by decide), kcolumn.named (by decide),
      String.reduceEq, reduceIte, List.append_nil, List.nil_append, kfile.reads fuel dfile,
      kline.reads fuel dline, kcolumn.reads fuel dcolumn]
    rfl

theorem TypeRef.toJsonList_eq (ts : List TypeRef) : TypeRef.toJsonList ts = ts.map TypeRef.toJson := by
  induction ts with
  | nil => rfl
  | cons t ts ih => rw [toJsonList, ih, List.map_cons]

theorem TypeRef.kept_node {n : Nat} {args : List TypeRef} (info : TypeInfo)
    (kargs : KeptMember (fun fuel => Layers.list? (TypeRef.ofLayers? fuel)) n "args"
      (Json.listMember "args" (args.map TypeRef.toJson)) args) :
    Kept TypeRef.ofLayers? (n + 1) (TypeRef.node info args).toJson (.node info args) := by
  have kname := KeptMember.present "name" (Kept.text n info.name)
  have kref := KeptMember.text (n := n) "ref" info.ref
  have kspelling := KeptMember.text (n := n) "spelling" info.spelling
  have kunresolved := KeptMember.flag (n := n) "unresolved" info.unresolved
  rw [TypeRef.toJson, TypeRef.toJsonList_eq]
  refine .object ?_ fun fuel hdepth => ?_
  · simp only [List.forall_mem_append]
    exact ⟨⟨⟨⟨kname.fit, kargs.fit⟩, kref.fit⟩, kspelling.fit⟩, kunresolved.fit⟩
  · simp only [List.forall_mem_append] at hdepth
    obtain ⟨⟨⟨⟨dname, dargs⟩, dref⟩, dspelling⟩, dunresolved⟩ := hdepth
    rw [TypeRef.ofLayers?, Layers.optional?_singleton rfl]
    simp only [Layers.members?_singleton, Option.bind_eq_bind, Option.bind_some, Json.named_append,
      kname.named (by decide), kargs.named (by decide), kref.named (by decide), kspelling.named (by decide),
      kunresolved.named (by decide), String.reduceEq, reduceIte, List.append_nil, List.nil_append,
      kname.reads fuel dname, kargs.reads fuel dargs, kref.reads fuel dref, kspelling.reads fuel dspelling,
      kunresolved.reads fuel dunresolved]
    rfl

/-- A type that was read is read back. -/
theorem TypeRef.kept {fuel : Nat} {vs : Layers} {t : TypeRef} (h : TypeRef.ofLayers? fuel vs = some t)
    {n : Nat} (hvs : Within n vs) : Kept TypeRef.ofLayers? n t.toJson t := by
  induction fuel generalizing vs t n with
  | zero => cases h
  | succ fuel ih =>
    obtain ⟨o, ho, h⟩ := Option.bind_eq_some_iff.mp h
    cases o with
    | none =>
      cases h
      exact .null n fun _ => rfl
    | some t =>
      cases h
      obtain ⟨s, hne, hread, hs⟩ := Layers.exists_of_optional? ho
      obtain ⟨ms, hms, hread⟩ := Option.bind_eq_some_iff.mp hread
      obtain ⟨m, rfl, hwithin⟩ := Layers.exists_within_of_members? hne hs hms hvs
      obtain ⟨name, -, hread⟩ := Option.bind_eq_some_iff.mp hread
      obtain ⟨ref, -, hread⟩ := Option.bind_eq_some_iff.mp hread
      obtain ⟨spelling, -, hread⟩ := Option.bind_eq_some_iff.mp hread
      obtain ⟨unresolved, -, hread⟩ := Option.bind_eq_some_iff.mp hread
      obtain ⟨args, hargs, hread⟩ := Option.bind_eq_some_iff.mp hread
      cases hread
      exact TypeRef.kept_node _ (.list "args" hargs (hwithin "args") fun _ _ _ _ hcol hread => ih hread hcol)

/-- A base that was read is read back. -/
theorem Base.kept {fuel : Nat} {vs s : Layers} {b : Base} (h : Base.ofLayers? fuel s = some b)
    (hne : s ≠ []) (hs : ∀ v ∈ s, v ∈ vs ∧ Layers.isNull v = false) {n : Nat} (hvs : Within n vs) :
    Kept Base.ofLayers? n b.toJson b := by
  obtain ⟨ms, hms, h⟩ := Option.bind_eq_some_iff.mp h
  obtain ⟨m, rfl, hwithin⟩ := Layers.exists_within_of_members? hne hs hms hvs
  obtain ⟨type, htype, h⟩ := Option.bind_eq_some_iff.mp h
  obtain ⟨access, -, h⟩ := Option.bind_eq_some_iff.mp h
  obtain ⟨virtual, -, h⟩ := Option.bind_eq_some_iff.mp h
  cases h
  have ktype := KeptMember.present "type" (TypeRef.kept htype (hwithin "type"))
  have kaccess := KeptMember.text (n := m) "access" access
  have kvirtual := KeptMember.flag (n := m) "virtual" virtual
  refine .object ?_ fun fuel hdepth => ?_
  · simp only [List.forall_mem_append]
    exact ⟨⟨ktype.fit, kaccess.fit⟩, kvirtual.fit⟩
  · simp only [List.forall_mem_append] at hdepth
    obtain ⟨⟨dtype, daccess⟩, dvirtual⟩ := hdepth
    have htype := ktype.reads (fuel + 1) fun m hm => Nat.le_succ_of_le (dtype m hm)
    simp only [Base.ofLayers?, Layers.members?_singleton, Option.bind_eq_bind, Option.bind_some,
      Json.named_append, ktype.named (by decide), kaccess.named (by decide), kvirtual.named (by decide),
      String.reduceEq, reduceIte, List.append_nil, List.nil_append, htype, kaccess.reads fuel daccess,
      kvirtual.reads fuel dvirtual]
    rfl

/-- A use that was read is read back. At even depths there is room for its position. -/
theorem Use.kept {vs s : Layers} {u : Use} (h : Use.ofLayers? s = some u)
    (hne : s ≠ []) (hs : ∀ v ∈ s, v ∈ vs ∧ Layers.isNull v = false) {n : Nat} (hvs : Within n vs)
    (heven : n % 2 = 0) : Kept (fun _ => Use.ofLayers?) n u.toJson u := by
  obtain ⟨ms, hms, h⟩ := Option.bind_eq_some_iff.mp h
  obtain ⟨m, rfl, hwithin⟩ := Layers.exists_within_of_members? hne hs hms hvs
  obtain ⟨k, rfl⟩ : ∃ k, m = k + 1 := ⟨m - 1, by omega⟩
  obtain ⟨name, -, h⟩ := Option.bind_eq_some_iff.mp h
  obtain ⟨loc, hloc, h⟩ := Option.bind_eq_some_iff.mp h
  obtain ⟨form, -, h⟩ := Option.bind_eq_some_iff.mp h
  obtain ⟨qualifier, -, h⟩ := Option.bind_eq_some_iff.mp h
  obtain ⟨viaThis, -, h⟩ := Option.bind_eq_some_iff.mp h
  obtain ⟨typename, -, h⟩ := Option.bind_eq_some_iff.mp h
  cases h
  have kname := KeptMember.present "name" (Kept.text (k + 1) name)
  have kloc := KeptMember.present "loc" (Loc.kept hloc k)
  have kform := KeptMember.text (n := k + 1) "form" form
  have kqualifier := KeptMember.text (n := k + 1) "qualifier" qualifier
  have kthis := KeptMember.flag (n := k + 1) "this" viaThis
  have ktypename := KeptMember.flag (n := k + 1) "typename" typename
  rw [Use.toJson, ← List.singleton_append]
  refine .object ?_ fun fuel hdepth => ?_
  · simp only [List.forall_mem_append]
    exact ⟨⟨⟨⟨⟨kname.fit, kloc.fit⟩, kform.fit⟩, kqualifier.fit⟩, kthis.fit⟩, ktypename.fit⟩
  · simp only [List.forall_mem_append] at hdepth
    obtain ⟨⟨⟨⟨⟨dname, dloc⟩, dform⟩, dqualifier⟩, dthis⟩, dtypename⟩ := hdepth
    simp only [Use.ofLayers?, Layers.members?_singleton, Option.bind_eq_bind, Option.bind_some,
      Json.named_append, kname.named (by decide), kloc.named (by decide), kform.named (by decide),
      kqualifier.named (by decide), kthis.named (by decide), ktypename.named (by decide), String.reduceEq,
      reduceIte, List.append_nil, List.nil_append, kname.reads fuel dname, kloc.reads fuel dloc,
      kform.reads fuel dform, kqualifier.reads fuel dqualifier, kthis.reads fuel dthis,
      ktypename.reads fuel dtypename]
    rfl

theorem Decl.toJsonList_eq (ds : List Decl) : Decl.toJsonList ds = ds.map Decl.toJson := by
  induction ds with
  | nil => rfl
  | cons d ds ih => rw [toJsonList, ih, List.map_cons]

theorem Decl.kept_node {n : Nat} {info : DeclInfo} {members : List Decl}
    (kloc : KeptMember (fun _ => Loc.ofLayers?) n "loc" [("loc", info.loc.toJson)] info.loc)
    (kparams : KeptMember (fun _ => Layers.list? Layers.text?) n "template_params"
      (Json.listMember "template_params" (info.templateParams.map .string)) info.templateParams)
    (kbases : KeptMember (fun fuel => Layers.list? (Layers.optional? (Base.ofLayers? fuel))) n "bases"
      (Json.listMember "bases" (info.bases.map (Json.ofOption Base.toJson))) info.bases)
    (kuses : KeptMember (fun _ => Layers.list? (Layers.optional? Use.ofLayers?)) n "uses"
      (Json.listMember "uses" (info.uses.map (Json.ofOption Use.toJson))) info.uses)
    (kmembers : KeptMember (fun fuel => Layers.list? (Decl.ofLayers? fuel)) n "members"
      (Json.listMember "members" (members.map Decl.toJson)) members) :
    Kept Decl.ofLayers? (n + 1) (Decl.node info members).toJson (.node info members) := by
  have kid := KeptMember.text (n := n) "id" info.id
  have kkind := KeptMember.present "kind" (Kept.text n info.kind)
  have kname := KeptMember.text (n := n) "name" info.name
  have kstatic := KeptMember.flag (n := n) "static" info.static
  have ktemplate := KeptMember.flag (n := n) "template" info.template
  have kowner := KeptMember.text (n := n) "owner" info.owner
  rw [Decl.toJson, Decl.toJsonList_eq]
  refine .object ?_ fun fuel hdepth => ?_
  · simp only [List.forall_mem_append]
    exact ⟨⟨⟨⟨⟨⟨⟨⟨⟨⟨kid.fit, kkind.fit⟩, kname.fit⟩, kloc.fit⟩, kstatic.fit⟩, ktemplate.fit⟩, kparams.fit⟩,
      kbases.fit⟩, kowner.fit⟩, kmembers.fit⟩, kuses.fit⟩
  · simp only [List.forall_mem_append] at hdepth
    obtain ⟨⟨⟨⟨⟨⟨⟨⟨⟨⟨did, dkind⟩, dname⟩, dloc⟩, dstatic⟩, dtemplate⟩, dparams⟩, dbases⟩, downer⟩, dmembers⟩,
      duses⟩ := hdepth
    rw [Decl.ofLayers?, Layers.optional?_singleton rfl]
    simp only [Layers.members?_singleton, Option.bind_eq_bind, Option.bind_some, Json.named_append,
      kid.named (by decide), kkind.named (by decide), kname.named (by decide), kloc.named (by decide),
      kstatic.named (by decide), ktemplate.named (by decide), kparams.named (by decide),
      kbases.named (by decide), kowner.named (by decide), kmembers.named (by decide), kuses.named (by decide),
      String.reduceEq, reduceIte, List.append_nil, List.nil_append, kid.reads fuel did, kkind.reads fuel dkind,
      kname.reads fuel dname, kloc.reads fuel dloc, kstatic.reads fuel dstatic,
      ktemplate.reads fuel dtemplate, kparams.reads fuel dparams, kbases.reads fuel dbases,
      kowner.reads fuel downer, kmembers.reads fuel dmembers, kuses.reads fuel duses]
    rfl

/-- A declaration that was read is read back. Declarations and uses stand at even depths, so that there is
room for the positions that are written even if they were left out before. -/
theorem Decl.kept {fuel : Nat} {vs : Layers} {d : Decl} (h : Decl.ofLayers? fuel vs = some d)
    {n : Nat} (hvs : Within n vs) (heven : n % 2 = 0) : Kept Decl.ofLayers? n d.toJson d := by
  induction fuel generalizing vs d n with
  | zero => cases h
  | succ fuel ih =>
    obtain ⟨o, ho, h⟩ := Option.bind_eq_some_iff.mp h
    cases o with
    | none =>
      cases h
      exact .null n fun _ => rfl
    | some t =>
      cases h
      obtain ⟨s, hne, hread, hs⟩ := Layers.exists_of_optional? ho
      obtain ⟨ms, hms, hread⟩ := Option.bind_eq_some_iff.mp hread
      obtain ⟨m, rfl, hwithin⟩ := Layers.exists_within_of_members? hne hs hms hvs
      obtain ⟨k, rfl⟩ : ∃ k, m = k + 1 := ⟨m - 1, by omega⟩
      obtain ⟨id, -, hread⟩ := Option.bind_eq_some_iff.mp hread
      obtain ⟨kind, -, hread⟩ := Option.bind_eq_some_iff.mp hread
      obtain ⟨name, -, hread⟩ := Option.bind_eq_some_iff.mp hread
      obtain ⟨loc, hloc, hread⟩ := Option.bind_eq_some_iff.mp hread
      obtain ⟨static, -, hread⟩ := Option.bind_eq_some_iff.mp hread
      obtain ⟨template, -, hread⟩ := Option.bind_eq_some_iff.mp hread
      obtain ⟨params, hparams, hread⟩ := Option.bind_eq_some_iff.mp hread
      obtain ⟨bases, hbases, hread⟩ := Option.bind_eq_some_iff.mp hread
      obtain ⟨owner, -, hread⟩ := Option.bind_eq_some_iff.mp hread
      obtain ⟨uses, huses, hread⟩ := Option.bind_eq_some_iff.mp hread
      obtain ⟨members, hmembers, hread⟩ := Option.bind_eq_some_iff.mp hread
      cases hread
      refine Decl.kept_node (.present "loc" (Loc.kept hloc k)) ?_ ?_ ?_ ?_
      · refine .list (k := 0) "template_params" hparams (hwithin "template_params") ?_
        intro m _ s _ _ _
        exact .text m s
      · refine .list "bases" hbases (hwithin "bases") ?_
        intro m col b _ hcol hread
        exact .optional hread (fun _ _ hne hs hread => Base.kept hread hne hs hcol) fun _ => rfl
      · refine .list (k := 0) "uses" huses (hwithin "uses") ?_
        intro m col u hm hcol hread
        exact .optional (k := 0) hread
          (fun _ _ hne hs hread => Use.kept hread hne hs hcol (by omega)) fun _ => rfl
      · refine .list "members" hmembers (hwithin "members") ?_
        intro m col d hm hcol hread
        exact ih hread hcol (by omega)

theorem CompilationUnit.kept_of_decls {n : Nat} {decls : Option (List Decl)} (file : String)
    (h : Kept (fun fuel => Layers.list? (Decl.ofLayers? fuel)) n
      (Json.ofOption (fun ds => .array (Decl.toJsonList ds)) decls) (decls.getD [])) :
    Fit (n + 1) (CompilationUnit.mk file decls).toJson ∧
      CompilationUnit.ofJson? (CompilationUnit.mk file decls).toJson = some ⟨file, decls⟩ := by
  have kfile := KeptMember.present "file" (Kept.text n file)
  have kdecls := KeptMember.present "decls" h
  rw [CompilationUnit.toJson, ← List.singleton_append]
  refine ⟨.object ?_, ?_⟩
  · simp only [List.forall_mem_append]
    exact ⟨kfile.fit, kdecls.fit⟩
  · have hdepth := Json.depth_object_le.mp (Nat.le_succ_of_le (Nat.le_succ_of_le (Nat.le_refl
      (Json.object ([("file", .string file)] ++
        [("decls", Json.ofOption (fun ds => .array (Decl.toJsonList ds)) decls)])).depth)))
    simp only [List.forall_mem_append] at hdepth
    simp only [CompilationUnit.ofJson?, Layers.members?_singleton, Option.bind_eq_bind, Option.bind_some,
      Json.named_append, kfile.named (by decide), kdecls.named (by decide), String.reduceEq, reduceIte,
      List.append_nil, List.nil_append, kfile.reads _ hdepth.1, kdecls.reads _ hdepth.2]
    cases decls <;> rfl

/-- **A unit that was read is read back**, and what is written for it is not too deep to read. -/
theorem CompilationUnit.kept {v : Json} {u : CompilationUnit} (h : CompilationUnit.ofJson? v = some u)
    (hv : v.nesting ≤ Json.maxDepth) :
    Fit Json.maxDepth u.toJson ∧ CompilationUnit.ofJson? u.toJson = some u := by
  obtain ⟨ms, hms, h⟩ := Option.bind_eq_some_iff.mp h
  obtain ⟨decls, hdecls, h⟩ := Option.bind_eq_some_iff.mp h
  obtain ⟨file, -, h⟩ := Option.bind_eq_some_iff.mp h
  cases h
  obtain ⟨n, hn, heven⟩ : ∃ n, Json.maxDepth = n + 2 ∧ n % 2 = 0 := ⟨9998, rfl, rfl⟩
  rw [hn] at hv ⊢
  have hwithin : Within (n + 1) (named ms "decls") := by
    intro w hw
    obtain ⟨m, hm, rfl⟩ := Json.mem_of_mem_named hw
    have hle := Layers.members?_within hms (fun x hx => List.mem_singleton.mp hx ▸ hv) m hm
    omega
  have hkept : ∀ d ∈ decls, Kept Decl.ofLayers? n d.toJson d := by
    intro d hd
    obtain ⟨m, hm, col, hcol, hread⟩ := Layers.within_of_mem_list? hdecls hwithin hd
    cases hm
    exact Decl.kept hread hcol heven
  refine CompilationUnit.kept_of_decls file ?_
  split
  · rw [Json.ofOption, Decl.toJsonList_eq]
    exact .array hkept
  · exact ⟨.null _, fun _ _ => rfl⟩

theorem CompilationUnit.decode_json (content : Bytes) (u : CompilationUnit) :
    CompilationUnit.decode false content = .ok u ↔
      ∃ v, Json.parse? (Bytes.chars content) = some v ∧ CompilationUnit.ofJson? v = some u := by
  rw [CompilationUnit.decode, if_neg Bool.false_ne_true, ← Option.bind_eq_some_iff]
  split
  next u' hu => rw [hu, Except.ok.injEq, Option.some.injEq]
  next hnone => simp [hnone]

theorem CompilationUnit.decode_of_spells {v : Json} {text : List Char} (htext : Json.Spells v text)
    (hv : v.nesting ≤ Json.maxDepth) {u : CompilationUnit} (h : CompilationUnit.ofJson? v = some u) :
    CompilationUnit.decode false (Bytes.ofChars text) = .ok u := by
  refine (CompilationUnit.decode_json _ u).mpr ⟨v, ?_, h⟩
  rw [Bytes.chars_ofChars, Json.parse?_spells htext hv]

theorem Bytes.ofString_render (v : Json) : Bytes.ofString (Json.render v) = Bytes.ofChars v.write := by
  rw [← Bytes.ofChars_toList, Json.render, String.toList_ofList]

/-- **A unit that was read from a dump is read again from what is written for it**, whatever way its strings
are escaped. Lists that a dump leaves out and empty lists are one and the same, but for the declarations of the
unit: whether they are listed is kept too. -/
theorem CompilationUnit.decode_written {content : Bytes} {u : CompilationUnit}
    (h : CompilationUnit.decode false content = .ok u) :
    CompilationUnit.decode false (Bytes.ofString (Json.render u.toJson)) = .ok u ∧
      ∀ text, Json.Spells u.toJson text → CompilationUnit.decode false (Bytes.ofChars text) = .ok u := by
  obtain ⟨v, hparse, hread⟩ := (CompilationUnit.decode_json content u).mp h
  obtain ⟨hfit, hread⟩ := CompilationUnit.kept hread (Json.nesting_le_of_parse? hparse)
  refine ⟨?_, fun text htext => CompilationUnit.decode_of_spells htext hfit.nesting_le hread⟩
  rw [Bytes.ofString_render]
  exact CompilationUnit.decode_of_spells hfit.spells hfit.nesting_le hread

/-- A dump that names the list of declarations in another case, leaves entries out and gives a number as the
last of two. -/
def sampleDump : Json :=
  .object [("Decls", .array [.null,
    .object [("kind", .string "class"), ("loc", .object [("line", .int 7), ("line", .int 9)]),
      ("bases", .array [.null, .object [("type", .object [("args", .array [.null])])]]),
      ("members", .array [.object []])]])]

def sampleDumpUnit : CompilationUnit where
  decls := some [.missing, .node {
    kind := "class"
    loc := { line := 9 }
    bases := [none, some { type := .node {} [.missing] }] } [.node {} []]]

theorem sampleDump_fit : Fit 8 sampleDump := by
  have hloc : Fit 5 (.object [("line", .int 7), ("line", .int 9)]) :=
    .object (List.forall_mem_cons.mpr ⟨.int 4 7, List.forall_mem_singleton.mpr (.int 4 9)⟩)
  have htype : Fit 3 (.object [("args", .array [.null])]) :=
    .object (List.forall_mem_singleton.mpr (.array (List.forall_mem_singleton.mpr (.null 1))))
  have hbases : Fit 5 (.array [.null, .object [("type", .object [("args", .array [.null])])]]) :=
    .array (List.forall_mem_cons.mpr
      ⟨.null 4, List.forall_mem_singleton.mpr (.object (List.forall_mem_singleton.mpr htype))⟩)
  have hmembers : Fit 5 (.array [.object []]) :=
    .array (List.forall_mem_singleton.mpr (.object fun _ h => nomatch h))
  refine .object (List.forall_mem_singleton.mpr (.array (List.forall_mem_cons.mpr
    ⟨.null 6, List.forall_mem_singleton.mpr (.object ?_)⟩)))
  simp only [List.forall_mem_cons, List.not_mem_nil, false_imp_iff, implies_true, and_true]
  exact ⟨.string 5 _, hloc, hbases, hmembers⟩

theorem sampleDump_decode :
    CompilationUnit.decode false (Bytes.ofString (Json.render sampleDump)) = .ok sampleDumpUnit := by
  have hdepth : sampleDump.nesting ≤ Json.maxDepth := Nat.le_trans sampleDump_fit.nesting_le (by decide)
  rw [Bytes.ofString_render]
  exact CompilationUnit.decode_of_spells sampleDump_fit.spells hdepth rfl

theorem CompilationUnit.decode_written_sample :
    CompilationUnit.decode false (Bytes.ofString (Json.render sampleDump)) = .ok sampleDumpUnit ∧
      CompilationUnit.decode false (Bytes.ofString (Json.render sampleDumpUnit.toJson)) = .ok sampleDumpUnit :=
  ⟨sampleDump_decode, (CompilationUnit.decode_written sampleDump_decode).1⟩

end TwoPhase
