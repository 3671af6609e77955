import YangBinding.CommandLine.Run
import YangBinding.Files.Volume
import YangBinding.Proofs.Json.RoundTrip
import YangBinding.Proofs.Schema.Accounting
import YangBinding.Proofs.Schema.Xml
import YangBinding.Proofs.SchemaOption
import Mathlib.Data.List.Induction

namespace YangBinding

namespace Json

section Fields

variable {α β : Type} {name : String} {value : α} {fields : List (String × α)}

theorem setField_of_notMem (h : name ∉ fields.map Prod.fst) :
    setField name value fields = fields ++ [(name, value)] := by
  induction fields with
  | nil => rfl
  | cons first rest ih =>
      obtain ⟨other, old⟩ := first
      obtain ⟨hne, hrest⟩ := not_or.mp (List.mem_cons.not.mp h)
      rw [setField, if_neg (Ne.symm hne), ih hrest, List.cons_append]

theorem map_fst_setField_of_mem (h : name ∈ fields.map Prod.fst) :
    (setField name value fields).map Prod.fst = fields.map Prod.fst := by
  induction fields with
  | nil => simp at h
  | cons first rest ih =>
      obtain ⟨other, old⟩ := first
      rw [setField]
      split
      · rename_i heq
        rw [List.map_cons, List.map_cons, heq]
      · rename_i hne
        have hrest : name ∈ rest.map Prod.fst := (List.mem_cons.mp h).resolve_left (Ne.symm hne)
        rw [List.map_cons, List.map_cons, ih hrest]

theorem of_mem_setField (hn : (fields.map Prod.fst).Nodup) {field : String × α}
    (h : field ∈ setField name value fields) :
    field = (name, value) ∨ field ∈ fields ∧ field.1 ≠ name := by
  induction fields with
  | nil => exact .inl (List.mem_singleton.mp h)
  | cons first rest ih =>
      obtain ⟨other, old⟩ := first
      obtain ⟨hfresh, hrest⟩ := List.nodup_cons.mp hn
      rw [setField] at h
      split at h
      · rename_i heq
        subst heq
        rcases List.mem_cons.mp h with h | h
        · exact .inl h
        · have hmem : field.1 ∈ rest.map Prod.fst := List.mem_map_of_mem h
          exact .inr ⟨List.mem_cons_of_mem _ h, fun hsame => hfresh (hsame ▸ hmem)⟩
      · rename_i hne
        rcases List.mem_cons.mp h with rfl | h
        · exact .inr ⟨List.mem_cons_self, hne⟩
        · rcases ih hrest h with h | ⟨hmem, hname⟩
          · exact .inl h
          · exact .inr ⟨List.mem_cons_of_mem _ hmem, hname⟩

theorem setField_map (f : α → β) (name : String) (value : α) (fields : List (String × α)) :
    setField name (f value) (fields.map fun field => (field.1, f field.2)) =
      (setField name value fields).map fun field => (field.1, f field.2) := by
  induction fields with
  | nil => rfl
  | cons first rest ih =>
      rw [List.map_cons, setField, setField, ih]
      split
      · rfl
      · rfl

theorem eraseDups_append_of_mem {names : List String} (h : name ∈ names) :
    (names ++ [name]).eraseDups = names.eraseDups := by
  simp [List.eraseDups_append, List.removeAll, h]

theorem eraseDups_append_of_notMem {names : List String} (h : name ∉ names) :
    (names ++ [name]).eraseDups = names.eraseDups ++ [name] := by
  simp [List.eraseDups_append, List.removeAll, h, List.eraseDups_cons]

-- Sets some fields one after the other.
def collect (given : List (String × α)) : List (String × α) :=
  given.foldl (fun kept field => setField field.1 field.2 kept) []

theorem collect_append_singleton (given : List (String × α)) (field : String × α) :
    collect (given ++ [field]) = setField field.1 field.2 (collect given) := by
  rw [collect, List.foldl_append]
  rfl

theorem collect_map (f : α → β) (given : List (String × α)) :
    collect (given.map fun field => (field.1, f field.2)) =
      (collect given).map fun field => (field.1, f field.2) := by
  induction given using List.reverseRecOn with
  | nil => rfl
  | append_singleton init field ih =>
      rw [List.map_append, List.map_singleton, collect_append_singleton,
        collect_append_singleton, ih]
      exact setField_map f field.1 field.2 (collect init)

-- What stays of some fields when each name is to occur once: the last value of each name, at the
-- place of the first.
structure LastOfEach (given kept : List (String × α)) : Prop where
  names : kept.map Prod.fst = (given.map Prod.fst).eraseDups
  nodup : (kept.map Prod.fst).Nodup
  last : ∀ field ∈ kept, ∃ before after, given = before ++ field :: after ∧
    field.1 ∉ after.map Prod.fst

theorem LastOfEach.names_iff {given kept : List (String × α)} (h : LastOfEach given kept) :
    name ∈ kept.map Prod.fst ↔ name ∈ given.map Prod.fst := by
  rw [h.names, List.mem_eraseDups]

theorem LastOfEach.mem_of_mem {given kept : List (String × α)} (h : LastOfEach given kept)
    {field : String × α} (hfield : field ∈ kept) : field ∈ given := by
  obtain ⟨before, after, rfl, -⟩ := h.last field hfield
  exact List.mem_append_right before List.mem_cons_self

theorem LastOfEach.setField {given kept : List (String × α)} (h : LastOfEach given kept)
    (name : String) (value : α) :
    LastOfEach (given ++ [(name, value)]) (setField name value kept) := by
  have hlast : ∀ field ∈ Json.setField name value kept, ∃ before after,
      given ++ [(name, value)] = before ++ field :: after ∧ field.1 ∉ after.map Prod.fst := by
    intro field hfield
    rcases of_mem_setField h.nodup hfield with rfl | ⟨hfield, hne⟩
    · exact ⟨given, [], rfl, List.not_mem_nil⟩
    · obtain ⟨before, after, rfl, hafter⟩ := h.last field hfield
      refine ⟨before, after ++ [(name, value)], by simp, ?_⟩
      rw [List.map_append, List.mem_append, List.map_singleton, List.mem_singleton]
      exact not_or.mpr ⟨hafter, hne⟩
  by_cases hname : name ∈ kept.map Prod.fst
  · have hsame : (Json.setField name value kept).map Prod.fst = kept.map Prod.fst :=
      map_fst_setField_of_mem hname
    refine ⟨?_, hsame ▸ h.nodup, hlast⟩
    rw [hsame, h.names, List.map_append, List.map_singleton,
      eraseDups_append_of_mem (h.names_iff.mp hname)]
  · have hnew : (Json.setField name value kept).map Prod.fst = kept.map Prod.fst ++ [name] := by
      rw [setField_of_notMem hname, List.map_append, List.map_singleton]
    refine ⟨?_, ?_, hlast⟩
    · rw [hnew, h.names, List.map_append, List.map_singleton,
        eraseDups_append_of_notMem (h.names_iff.not.mp hname)]
    · rw [hnew, ← List.concat_eq_append]
      exact List.Nodup.concat hname h.nodup

theorem lastOfEach_collect (given : List (String × α)) : LastOfEach given (collect given) := by
  induction given using List.reverseRecOn with
  | nil => exact ⟨rfl, List.nodup_nil, by simp [collect]⟩
  | append_singleton init field ih =>
      rw [collect_append_singleton]
      exact ih.setField field.1 field.2

-- Nothing is dropped exactly if no name is repeated.
theorem collect_eq_self_iff (given : List (String × α)) :
    collect given = given ↔ (given.map Prod.fst).Nodup := by
  constructor
  · intro h
    have hnodup := (lastOfEach_collect given).nodup
    rwa [h] at hnodup
  · intro h
    induction given using List.reverseRecOn with
    | nil => rfl
    | append_singleton init field ih =>
        rw [List.map_append, List.map_singleton, ← List.concat_eq_append,
          List.nodup_concat] at h
        rw [collect_append_singleton, ih h.2, setField_of_notMem h.1]

end Fields

end Json

theorem SchemaRecord.toJson_inj {r q : SchemaRecord} (h : r.toJson = q.toJson) : r = q := by
  simp only [toJson, Json.obj.injEq, List.cons.injEq, Prod.mk.injEq, Json.str.injEq,
    Json.int.injEq, Json.arr.injEq, true_and, and_true] at h
  obtain ⟨hpath, huri, hleast, hgreatest, hchildren⟩ := h
  have hoccurs : r.occurs = q.occurs := by
    rw [Occurs.mk.injEq]
    exact ⟨Int.ofNat.inj hleast, Occurs.greatestText_inj hgreatest⟩
  rw [SchemaRecord.mk.injEq]
  exact ⟨hpath, huri, hoccurs, List.map_injective_iff.mpr (fun _ _ => Json.str.inj) hchildren⟩

theorem SchemaTable.toJson_inj {table other : SchemaTable} (h : table.toJson = other.toJson) :
    table = other := by
  have hrecord (r q : SchemaRecord) (heq : (r.tagPath, r.toJson) = (q.tagPath, q.toJson)) :
      r = q := SchemaRecord.toJson_inj (Prod.mk.inj heq).2
  rw [SchemaTable.mk.injEq]
  exact List.map_injective_iff.mpr (fun r q => hrecord r q) (Json.obj.inj h)

-- The field of a module in the printed schemas.
def SchemaTable.field (entry : String × SchemaTable) : String × Json := (entry.1, entry.2.toJson)

theorem SchemaTable.field_injective : Function.Injective SchemaTable.field := by
  rintro ⟨name, table⟩ ⟨other, otherTable⟩ h
  obtain ⟨hname, hjson⟩ := Prod.mk.inj h
  rw [Prod.mk.injEq]
  exact ⟨hname, toJson_inj hjson⟩

theorem SchemaTable.collect_map_field (tables : List (String × SchemaTable)) :
    Json.collect (tables.map field) = (Json.collect tables).map field :=
  Json.collect_map toJson tables

-- Records that are drawn have counts that can be read back.
def SchemaTable.Readable (table : SchemaTable) : Prop :=
  ∀ record ∈ table.records, record.occurs.least < Json.significandBound

theorem SchemaRecord.plain_toJson {record : SchemaRecord}
    (h : record.occurs.least < Json.significandBound) (depth : Nat) :
    Json.Plain (depth + 2) record.toJson := by
  have hchildren : ∀ item ∈ record.children.map Json.str, Json.Plain depth item := by
    intro item hitem
    obtain ⟨name, -, rfl⟩ := List.mem_map.mp hitem
    exact .str name
  refine .obj ?_
  simp only [List.forall_mem_cons]
  exact ⟨.str _, .str _, .int h, .str _, .arr hchildren, List.forall_mem_nil _⟩

theorem SchemaTable.Readable.plain_toJson {table : SchemaTable} (h : table.Readable) (depth : Nat) :
    Json.Plain (depth + 3) table.toJson := by
  refine .obj fun field hfield => ?_
  obtain ⟨record, hrecord, rfl⟩ := List.mem_map.mp hfield
  exact SchemaRecord.plain_toJson (h record hrecord) depth

theorem SchemaTable.parse_pretty_fields {tables : List (String × SchemaTable)}
    (h : ∀ entry ∈ tables, entry.2.Readable) :
    Json.parse (Json.pretty "" (.obj (tables.map field))) = .ok (.obj (tables.map field)) := by
  have hplain : Json.Plain Json.depthLimit (.obj (tables.map field)) := by
    refine .obj fun shown hshown => ?_
    obtain ⟨entry, hentry, rfl⟩ := List.mem_map.mp hshown
    exact (h entry hentry).plain_toJson 123
  exact Json.parse_pretty hplain

theorem Node.occurs_least_le (n : Node) (parent : Option Node) : (n.occurs parent).least ≤ 1 := by
  unfold occurs
  dsimp only
  split
  · exact Nat.le_refl 1
  · exact Nat.zero_le 1

theorem Node.schema_readable (n : Node) (parent : Option Node) (namespaceUri base : String) :
    (n.schema parent namespaceUri base).table.Readable := by
  obtain ⟨inner, refused, -, hschema⟩ := n.exists_survey base
  rw [hschema]
  intro record hrecord
  obtain ⟨route, -, rfl⟩ := List.mem_map.mp hrecord
  have hsmall : 1 < Json.significandBound := by decide
  cases route with
  | nil => exact Nat.lt_of_le_of_lt (n.occurs_least_le parent) hsmall
  | cons s around => exact Nat.lt_of_le_of_lt (s.occurs_least_le _) hsmall

theorem Node.schema_paths_nodup (n : Node) (parent : Option Node) (namespaceUri base : String) :
    (n.schema parent namespaceUri base).table.paths.Nodup := by
  obtain ⟨inner, refused, hsurvey, hschema⟩ := n.exists_survey base
  rw [hschema, Drawing.ofRoutes_paths]
  exact hsurvey.paths_nodup

-- The schemas of a compilation with the names of their modules, in order.
def Compilation.Tabulates (c : Compilation) (tables : List (String × SchemaTable)) : Prop :=
  List.Forall₂ (fun m entry => m.model.module = entry.1 ∧ m.schema = some entry.2) c.modules tables

namespace Compilation

variable {c : Compilation} {tables : List (String × SchemaTable)}

theorem Tabulates.schemaXml (h : c.Tabulates tables) :
    c.schemaXml = String.join (tables.map fun entry => entry.2.xml) := by
  have hmap : (c.modules.map fun m => (m.schema.map SchemaTable.xml).getD "") =
      tables.map fun entry => entry.2.xml := by
    rw [← List.forall₂_eq_eq_eq, List.forall₂_map_left_iff, List.forall₂_map_right_iff]
    exact h.imp fun m entry hentry => by rw [hentry.2, Option.map_some, Option.getD_some]
  rw [Compilation.schemaXml, hmap]

theorem Tabulates.schemaJson (h : c.Tabulates tables) :
    c.schemaJson = .obj ((Json.collect tables).map SchemaTable.field) := by
  rw [← SchemaTable.collect_map_field, Compilation.schemaJson, Json.collect]
  congr 1
  unfold Tabulates at h
  generalize ([] : List (String × Json)) = fields
  generalize c.modules = modules at h ⊢
  induction h generalizing fields with
  | nil => rfl
  | cons hentry _ ih =>
      rw [List.foldl_cons, List.map_cons, List.foldl_cons, ih, hentry.1, hentry.2]
      rfl

end Compilation

theorem Forest.exists_tabulates {forest : Forest} {c : Compilation}
    (h : forest.compile true = .ok c) :
    ∃ tables, c.Tabulates tables ∧
      ∀ entry ∈ tables, entry.2.paths.Nodup ∧ entry.2.Readable := by
  refine ⟨c.modules.map fun m => (m.model.module, m.schema.getD .empty), ?_, ?_⟩
  · refine List.forall₂_map_right_iff.mpr (List.forall₂_same.mpr fun m hm => ⟨rfl, ?_⟩)
    obtain ⟨table, htable⟩ := Option.isSome_iff_exists.mp (schema_isSome h hm)
    rw [htable, Option.getD_some]
  · intro entry hentry
    obtain ⟨m, hm, rfl⟩ := List.mem_map.mp hentry
    obtain ⟨root, -, hroot⟩ := (compile_ok h).1.exists_of_mem_right hm
    obtain ⟨_, _, _, -, -, -, rfl⟩ := Node.compileModule_eq_ok_iff.mp hroot
    exact ⟨root.schema_paths_nodup _ _ _, root.schema_readable _ _ _⟩

namespace CommandLine

open Files (Host)

-- Prints a text, or writes it into a file if one is given.
def deliver {m : Type → Type} [Monad m] (host : Host m) (out : Option String) (text : String)
    (remarks : List String) : m RunReport := do
  match out with
  | none => return ⟨[], text, remarks⟩
  | some path => return ⟨← writeOutput host path text, "", remarks⟩

variable {σ : Type} {host : Host (StateM σ)} {input : InputSettings} {start loaded : σ}
  {c : Compilation}

theorem compileInput_ok {withSchema : Bool}
    (h : (compileInput host input withSchema).run start = (.ok c, loaded)) :
    ∃ forest : Forest, forest.compile withSchema = .ok c := by
  rw [compileInput, StateT.run_bind] at h
  rcases hload : (load host input).run.run start with ⟨e | forest, next⟩
  · rw [hload] at h
    exact nomatch (Prod.mk.inj h).1
  · rw [hload] at h
    have hcompile := (Prod.mk.inj h).1
    cases hc : forest.compile withSchema with
    | error e =>
        rw [hc] at hcompile
        exact nomatch hcompile
    | ok found =>
        rw [hc] at hcompile
        exact ⟨forest, hc.trans (congrArg Except.ok (Except.ok.inj hcompile))⟩

theorem runSchema_run (h : (compileInput host input true).run start = (.ok c, loaded))
    (asJson : Bool) (out : Option String) :
    (runSchema host ⟨input, asJson, out⟩).run start =
      (deliver host out (if asJson then Json.pretty "" c.schemaJson else c.schemaXml)
        (c.diagnostics.map warning)).run loaded := by
  rw [runSchema, StateT.run_bind, h]
  cases out with
  | none => rfl
  | some path => rfl

-- What the two modes of the schema command tell of the compiled modules: the XML has the tables
-- of all, the JSON an entry for each name with the last table of that name. What was printed as
-- JSON can be read back as these tables and no others.
structure SchemaModes (host : Host (StateM σ)) (input : InputSettings) (start loaded : σ)
    (c : Compilation) (tables kept : List (String × SchemaTable)) : Prop where
  tabulates : c.Tabulates tables
  paths_nodup : ∀ entry ∈ tables, entry.2.paths.Nodup
  xml : ∀ out, (runSchema host ⟨input, false, out⟩).run start =
    (deliver host out (String.join (tables.map fun entry => entry.2.xml))
      (c.diagnostics.map warning)).run loaded
  json : ∀ out, (runSchema host ⟨input, true, out⟩).run start =
    (deliver host out (Json.pretty "" (.obj (kept.map SchemaTable.field)))
      (c.diagnostics.map warning)).run loaded
  last : Json.LastOfEach tables kept
  read_back_iff : ∀ others,
    Json.parse (Json.pretty "" (.obj (kept.map SchemaTable.field))) =
      .ok (.obj (others.map SchemaTable.field)) ↔ others = kept
  agree_iff : Json.obj (kept.map SchemaTable.field) = .obj (tables.map SchemaTable.field) ↔
    (tables.map Prod.fst).Nodup

theorem schema_modes_agree_iff (host : Host (StateM σ)) (input : InputSettings) (start loaded : σ)
    (c : Compilation) (h : (compileInput host input true).run start = (.ok c, loaded)) :
    ∃ tables kept, SchemaModes host input start loaded c tables kept := by
  obtain ⟨forest, hcompile⟩ := compileInput_ok h
  obtain ⟨tables, htables, hdrawn⟩ := Forest.exists_tabulates hcompile
  have hlast := Json.lastOfEach_collect tables
  have hkept : ∀ entry ∈ Json.collect tables, entry.2.Readable := fun entry hentry =>
    (hdrawn entry (hlast.mem_of_mem hentry)).2
  refine ⟨tables, Json.collect tables, {
    tabulates := htables
    paths_nodup := fun entry hentry => (hdrawn entry hentry).1
    xml := fun out => ?_
    json := fun out => ?_
    last := hlast
    read_back_iff := fun others => ?_
    agree_iff := ?_ }⟩
  · rw [runSchema_run h, htables.schemaXml]
    rfl
  · rw [runSchema_run h, htables.schemaJson]
    rfl
  · rw [SchemaTable.parse_pretty_fields hkept, Except.ok.injEq, Json.obj.injEq,
      SchemaTable.field_injective.list_map.eq_iff]
    exact eq_comm
  · rw [Json.obj.injEq, SchemaTable.field_injective.list_map.eq_iff]
    exact Json.collect_eq_self_iff tables

-- Two modules of one name, each in a file of its own.
def twoFiles : Files.Machine where
  volume := ⟨[
    (["a.json"], .file (.text
      "[\"module\",\"m\",[[\"namespace\",\"urn:a\"],[\"prefix\",\"a\"]]]")),
    (["b.json"], .file (.text
      "[\"module\",\"m\",[[\"namespace\",\"urn:b\"],[\"prefix\",\"b\"]]]"))]⟩
  cwd := []
  tool := none
  call := none

def twoInputs : InputSettings := ⟨["a.json", "b.json"], none⟩

theorem schema_modes_of_twoFiles :
    ∃ c loaded, (compileInput Files.Machine.host twoInputs true).run twoFiles = (.ok c, loaded) ∧
      (c.modules.map fun m => m.model.module) = ["m", "m"] ∧
      ∃ tables kept, SchemaModes Files.Machine.host twoInputs twoFiles loaded c tables kept := by
  have hok : (((compileInput Files.Machine.host twoInputs true).run twoFiles).1.toOption.map
      fun c => c.modules.map fun m => m.model.module) = some ["m", "m"] := by decide +kernel
  rcases h : (compileInput Files.Machine.host twoInputs true).run twoFiles with ⟨e | c, loaded⟩
  · rw [h] at hok
    exact nomatch hok
  · rw [h] at hok
    exact ⟨c, loaded, rfl, Option.some.inj hok, schema_modes_agree_iff _ _ _ _ c h⟩

-- Both modules have their tables, and nothing is remarked on, but only the table of the second
-- is printed as JSON.
theorem first_of_one_name_not_printed :
    (((compileInput Files.Machine.host twoInputs true).run twoFiles).1.toOption.map fun c =>
      (c.diagnostics, c.modules.map fun m => m.schema.map fun table =>
        table.records.map SchemaRecord.namespaceUri)) =
      some ([], [some ["urn:a"], some ["urn:b"]]) ∧
    ((runSchema Files.Machine.host ⟨twoInputs, true, none⟩).run twoFiles).1 =
      ⟨[], Json.pretty "" (.obj [("m", .obj [("/", .obj [("tag_path", .str "/"),
        ("namespace", .str "urn:b"), ("min_occurs", .int 1), ("max_occurs", .str "1"),
        ("children", .arr [])])])]), []⟩ := by
  exact ⟨by decide +kernel, by decide +kernel⟩

end CommandLine

end YangBinding
