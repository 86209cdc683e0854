import AbiBridge.Listing
import AbiBridge.Proofs.Crate.Registration

/-!
The surface of a crate.

A crate says twice what it exports: its wrappers open with a header each, and its table has a row
for each signature. Both are read from one list of entries.

* `Entry`: a name, parameters and a result, with its row and its header;
* `opensExport`: the lines that open an exported function;
* `Records.filter_opensExport`: in the lines of a crate these are the headers of its signatures;
* `Crate.ScalarResults`: what the functions of the crate return themselves is a scalar;
* `Crate.Surfaces`, `Records.surfaces`: the entries of a crate with such results.
-/

namespace AbiBridge

open Outcome Text

/-! ### Entries -/

/-- What is shown of an exported function: its name, its parameters and, if there is one, its
result. -/
structure Entry where
  name : String
  params : String
  result : Option String
  deriving DecidableEq, Repr

namespace Entry

/-- The row of an entry. -/
def row (e : Entry) : List String :=
  [e.name, if e.params = "" then "-" else escapeMarkup e.params, escapeMarkup (e.result.getD "()")]

/-- The line that opens the function of an entry. -/
def header (e : Entry) : String :=
  String.join ["pub extern \"C\" fn ", e.name, "(", e.params, ")",
    e.result.elim "" (" -> " ++ ·), " \x7b"]

/-- The stand-ins in the row of an entry, for no parameters and for no result, stand for nothing
else. -/
structure Definite (e : Entry) : Prop where
  params : e.params ≠ "-"
  result : ∀ r ∈ e.result, r ∉ ["", "()"]

/-- The entry of a signature. -/
def ofSignature (g : Signature) : Entry := ⟨g.name, g.paramsText, g.result⟩

/-- Parameters are shown with a colon and a blank each, so they are longer than the stand-in. -/
lemma paramsText_ne (g : Signature) : g.paramsText ≠ "-" := by
  intro h
  rw [Signature.paramsText] at h
  cases hparams : g.params with
  | nil =>
      rw [hparams, List.map_nil] at h
      exact absurd h (by decide)
  | cons p ps =>
      obtain ⟨rest, hrest⟩ : ∃ rest, ", ".intercalate ((p :: ps).map Parameter.render) =
          p.name ++ (": " ++ (p.typeText ++ rest)) := by
        cases ps with
        | nil => exact ⟨"", by simp [Parameter.render, String.append_assoc]⟩
        | cons q qs =>
            rw [List.map_cons, List.map_cons, String.intercalate_cons_cons, Parameter.render]
            exact ⟨", " ++ ", ".intercalate (q.render :: qs.map Parameter.render),
              by simp only [String.append_assoc]⟩
      rw [hparams, hrest] at h
      have hlength := congrArg String.length h
      have hcolon : (": ").length = 2 := by decide
      have hdash : ("-").length = 1 := by decide
      rw [String.length_append, String.length_append, hcolon, hdash] at hlength
      omega

end Entry

/-! ### Lines that open an exported function -/

/-- Whether a line opens an exported function. -/
def opensExport (line : String) : Bool := "pub extern \"C\" fn ".toList.isPrefixOf line.toList

lemma opensExport_header (e : Entry) : opensExport e.header = true := by
  rw [opensExport, List.isPrefixOf_iff_prefix, Entry.header, String.join_cons, String.toList_append]
  exact List.prefix_append _ _

/-- A line below another one is indented. -/
lemma opensExport_indented (line : String) : opensExport (Emitter.indented 1 line) = false := by
  rw [Emitter.indented]
  split
  · decide
  · rw [opensExport, String.toList_append, String.toList_ofList]
    rfl

/-- Of the lines of a wrapper one opens an exported function, its header. -/
lemma filter_block {w : Wrapper} (hexported : w.signature.exported = true)
    (hresult : ∀ r ∈ w.signature.result, r ≠ "") (body : List String) :
    (w.block body).filter opensExport = [(Entry.ofSignature w.signature).header] := by
  have hheader : w.signature.header =
      ["#[no_mangle]", (Entry.ofSignature w.signature).header] := by
    have harrow : Signature.arrow w.signature.result =
        w.signature.result.elim "" (" -> " ++ ·) := by
      cases hr : w.signature.result with
      | none => rfl
      | some r =>
          rw [Signature.arrow, if_neg (hresult r hr)]
          rfl
    rw [Signature.header, if_pos hexported, harrow]
    simp [Entry.header, Entry.ofSignature, String.append_assoc]
  have hbody : ∀ lines : List String, (lines.map (Emitter.indented 1)).filter opensExport = [] := by
    intro lines
    rw [List.filter_eq_nil_iff]
    intro line hline
    obtain ⟨line, -, rfl⟩ := List.mem_map.mp hline
    rw [opensExport_indented]
    exact Bool.false_ne_true
  have hends : opensExport "#[no_mangle]" = false ∧ opensExport "\x7d" = false := by decide
  rw [Wrapper.block, hheader, List.filter_append, List.filter_append, hbody, List.filter_cons,
    hends.1, List.filter_cons, opensExport_header, List.filter_cons, hends.2]
  rfl

/-! ### Results -/

namespace Crate

/-- What the functions of the crate return themselves is a scalar. -/
def ScalarResults (c : Crate) : Prop :=
  ∀ g ∈ c.signatures, ∀ r ∈ g.result, r ∈ BoundaryType.primitiveNames

end Crate

/-- The result of a descriptor is no scalar of another name than those of the native language. -/
def Descriptor.ScalarResult (d : Descriptor) : Prop :=
  ∀ name, d.ret = some (.primitive name) → name ∈ BoundaryType.primitiveNames

/-- A wrapper returns a scalar of its descriptor, or the sentinel. -/
lemma Descriptor.ScalarResult.result_mem {d : Descriptor} {w : Wrapper} (hd : d.ScalarResult)
    (h : d.compile = .ok w) : ∀ r ∈ w.signature.result, r ∈ BoundaryType.primitiveNames := by
  obtain ⟨a, rfl⟩ := exists_assembly h
  intro r hr
  have hsignature : a.wrapper.signature = ⟨d.symbol, true, a.params, d.nativeReturn, d.fallible⟩ :=
    rfl
  rw [hsignature, Signature.result] at hr
  cases hfallible : d.fallible with
  | true =>
      rw [hfallible] at hr
      cases hr
      decide
  | false =>
      rw [hfallible] at hr
      change r ∈ d.nativeReturn at hr
      rw [nativeReturn] at hr
      split at hr
      · next name hret =>
        rw [hfallible] at hr
        cases hr
        exact hd _ hret
      · cases hr

/-- The owner takes the place of no scalar. -/
lemma BoundaryType.resolveSelf_eq_primitive {t : BoundaryType} {owner name : String}
    {params : List BoundaryType}
    (h : t.resolveSelf (.struct owner params) = .ok (.primitive name)) : t = .primitive name := by
  cases t with
  | primitive _ => exact Except.ok.inj h
  | unknown => cases h
  | enum _ _ => cases h
  | struct s ps =>
      rw [resolveSelf] at h
      split at h
      · cases h
      · obtain ⟨_, -, h⟩ := bind_eq_ok.mp h
        cases h
  | sharedRef inner | mutRef inner | sequence inner =>
      rw [resolveSelf] at h
      obtain ⟨_, -, h⟩ := bind_eq_ok.mp h
      cases h

/-- A descriptor keeps its scalar when its owner is put in. -/
lemma Descriptor.ScalarResult.resolved {d d' : Descriptor} {owner : String}
    {params : List BoundaryType} (hd : d.ScalarResult)
    (h : Registering.resolved d (.struct owner params) = .ok d') : d'.ScalarResult := by
  obtain ⟨args, -, h⟩ := bind_eq_ok.mp h
  obtain ⟨ret, hret, h⟩ := bind_eq_ok.mp h
  cases h
  intro name hname
  have hname : ret = some (.primitive name) := hname
  rw [option_mapM_eq_ok, hname] at hret
  cases hold : d.ret with
  | none =>
      rw [hold] at hret
      cases hret
  | some t =>
      rw [hold] at hret
      cases hret with
      | some hresolved =>
          exact hd name (by rw [hold, BoundaryType.resolveSelf_eq_primitive hresolved])

namespace Registering

lemma keeps_scalarResults_exportWrapper (w : Wrapper) (origin : String) :
    Keeps Crate.ScalarResults (exportWrapper w origin) := by
  refine Keeps.bind (Keeps.bind (fun c hc => hc) fun c => ?_) fun _ c hc => ?_
  · split
    · exact .throw _
    · exact fun c hc => hc
  · rw [after, emission]
    cases w.emit c.emitter <;> exact hc

lemma keeps_scalarResults_register {d : Descriptor} (hd : d.ScalarResult) :
    Keeps Crate.ScalarResults (register d) := by
  unfold register
  cases hcompile : d.compile with
  | error fault => exact .throw _
  | ok w =>
      refine (keeps_scalarResults_exportWrapper _ _).bind fun _ => ?_
      refine Keeps.bind (fun c hc => ?_) fun _ => Keeps.bind (fun c hc => hc) fun _ => .pure _
      exact List.forall_mem_append.mpr
        ⟨hc, List.forall_mem_singleton.mpr (hd.result_mem hcompile)⟩

lemma keeps_scalarResults_addMethod (owner : Option BoundaryType) {d : Descriptor}
    (hd : d.ScalarResult) : Keeps Crate.ScalarResults (addMethod owner d) := by
  rw [addMethod.eq_def]
  split
  · split
    · exact .throw _
    · next hresolved => exact keeps_scalarResults_register (hd.resolved hresolved)
  · exact .throw _

/-- A destructor returns nothing. -/
lemma keeps_scalarResults_addDestructor (name : String) (params : List BoundaryType) :
    Keeps Crate.ScalarResults (addDestructor name params) := by
  unfold addDestructor
  cases hcompile : compileDestructor (some (.struct name params)) none with
  | error fault => exact .throw _
  | ok w =>
      refine (keeps_scalarResults_exportWrapper _ _).bind fun _ c hc => ?_
      refine List.forall_mem_append.mpr ⟨hc, List.forall_mem_singleton.mpr fun r hr => ?_⟩
      rw [signature_of_compileDestructor hcompile] at hr
      cases hr

/-- The functions of the traits return the struct or a truth value. -/
lemma keeps_scalarResults_addHandle (t : Option BoundaryType) (traits : List DerivedTrait) :
    Keeps Crate.ScalarResults (addHandle t traits) := by
  rw [addHandle.eq_def]
  split
  · refine (keeps_scalarResults_addDestructor _ _).bind fun _ => ?_
    refine .ite_bind (keeps_scalarResults_addMethod _ fun name h => ?_).discard fun _ => ?_
    · cases h
    refine .ite_bind (keeps_scalarResults_addMethod _ fun name h => ?_).discard fun _ => ?_
    · cases h
    refine .ite_bind (fun c hc => hc) fun _ => ?_
    refine .ite (keeps_scalarResults_addMethod _ fun name h => ?_).discard (.pure ())
    cases h
    decide
  · exact .throw _

lemma keeps_scalarResults_addDependency (name : String) (options : List (String × Value)) :
    Keeps Crate.ScalarResults (addDependency name options) := by
  rw [addDependency]
  split
  · exact .throw _
  · exact fun c hc => hc

end Registering

/-! ### The surface -/

/-- The crate exports the entries: they are the headers in its lines, and the rows of its table. -/
structure Crate.Surfaces (c : Crate) (entries : List Entry) : Prop where
  headers : c.emitter.lines.filter opensExport = entries.map Entry.header
  rows : (Listing.ofCrate c).rows = entries.map Entry.row
  /-- No two entries have one name. -/
  nodup : (entries.map Entry.name).Nodup
  definite : ∀ e ∈ entries, e.Definite
  /-- There is an entry for every symbol. -/
  length_eq : entries.length = c.symbols.length

namespace Records

variable {exports : List Exported} {imports : List String} {c : Crate}

/-- In the lines of a crate, the headers of its signatures open its exports. -/
lemma filter_opensExport (h : Records exports imports c) (hresults : c.ScalarResults) :
    c.emitter.lines.filter opensExport =
      c.signatures.map fun g => (Entry.ofSignature g).header := by
  have hnonempty : ∀ x ∈ exports, ∀ r ∈ x.wrapper.signature.result, r ≠ "" := by
    intro x hx r hr
    have hnames : ∀ name ∈ BoundaryType.primitiveNames, name ≠ "" := by decide
    refine hnames r (hresults x.wrapper.signature ?_ r hr)
    rw [h.signatures]
    exact List.mem_map_of_mem hx
  obtain ⟨blocks, hblocks, hlines⟩ := h.lines
  rw [hlines, h.signatures, List.map_map]
  clear hlines h
  induction hblocks with
  | nil => rfl
  | @cons x block exports blocks hblock _ ih =>
      obtain ⟨body, -, rfl⟩ := hblock
      obtain ⟨hfirst, hothers⟩ := List.forall_mem_cons.mp hnonempty
      have hblank : [""].filter opensExport = [] := by decide
      rw [List.flatMap_cons, List.filter_append, List.filter_append,
        filter_block x.exported hfirst, hblank, List.append_nil, ih hothers, List.map_cons]
      rfl

/-- The entries of a crate are those of the signatures of its exports. -/
lemma surfaces (h : Records exports imports c) (hresults : c.ScalarResults) :
    c.Surfaces (exports.map fun x => .ofSignature x.wrapper.signature) where
  headers := by
    rw [h.filter_opensExport hresults, h.signatures, List.map_map, List.map_map]
    rfl
  rows := by
    rw [Listing.ofCrate, h.signatures, List.map_map, List.map_map]
    rfl
  nodup := by
    rw [List.map_map]
    exact h.nodup
  definite := by
    intro e he
    obtain ⟨x, hx, rfl⟩ := List.mem_map.mp he
    refine ⟨Entry.paramsText_ne _, fun r hr => ?_⟩
    have hnames : ∀ name ∈ BoundaryType.primitiveNames, name ∉ ["", "()"] := by decide
    refine hnames r (hresults x.wrapper.signature ?_ r hr)
    rw [h.signatures]
    exact List.mem_map_of_mem hx
  length_eq := by rw [h.symbols, List.length_map, List.length_map]

end Records

end AbiBridge
