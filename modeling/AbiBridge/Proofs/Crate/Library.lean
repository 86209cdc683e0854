import AbiBridge.Proofs.Crate.Registration

/-!
The library of a crate.

* `Records.exists_sources`: the source of the library is what is brought into scope and, behind an
  empty line, the sources of the exports, each as it is written alone, with an empty line between
  two of them;
* `logsFirst_flush`: writing the crate logs the number of exported symbols, unless a file could not
  be written before;
* `consistent_runAll`: both hold after every list of registrations on a new crate.
-/

namespace AbiBridge

open Emitter Outcome

/-! ### Texts of lines -/

/-- Blocks with an empty line behind each are texts of lines with an empty line between two. -/
lemma intercalate_flatMap {blocks : List (List String)} (h : ∀ block ∈ blocks, block ≠ []) :
    "\n".intercalate (blocks.flatMap (· ++ [""])) =
      "\n".intercalate (blocks.map fun block => "\n".intercalate block ++ "\n") := by
  induction blocks with
  | nil => rfl
  | cons block blocks ih =>
      obtain ⟨hblock, hblocks⟩ := List.forall_mem_cons.mp h
      have hfirst : "\n".intercalate (block ++ [""]) = "\n".intercalate block ++ "\n" := by
        rw [String.intercalate_append_of_ne_nil hblock (List.cons_ne_nil _ _),
          String.intercalate_singleton, String.append_empty]
      cases blocks with
      | nil =>
          rw [List.flatMap_singleton, List.map_singleton, String.intercalate_singleton]
          exact hfirst
      | cons other blocks =>
          have hlines : (other :: blocks).flatMap (· ++ [""]) ≠ [] := by simp
          have htexts : (other :: blocks).map (fun block => "\n".intercalate block ++ "\n") ≠ [] :=
            List.cons_ne_nil _ _
          rw [List.flatMap_cons, String.intercalate_append_of_ne_nil (by simp) hlines, hfirst,
            ih hblocks, List.map_cons (a := block), String.intercalate_cons_of_ne_nil htexts]

/-- Lines that each end in a line feed. -/
lemma intercalate_append_newline (line : String) (lines : List String) :
    "\n".intercalate (line :: lines) ++ "\n" = String.join ((line :: lines).map (· ++ "\n")) := by
  induction lines generalizing line with
  | nil => simp
  | cons other lines ih =>
      rw [String.intercalate_cons_cons, List.map_cons, String.join_cons, ← ih other]
      simp only [String.append_assoc]

/-- A text ends as the last of its pieces does. -/
lemma exists_intercalate_eq {pieces : List String} {ending : String} (hne : pieces ≠ [])
    (h : ∀ s ∈ pieces, ∃ front, s = front ++ ending) :
    ∃ front, "\n".intercalate pieces = front ++ ending := by
  obtain ⟨front, hfront⟩ := h _ (List.getLast_mem hne)
  rw [← List.dropLast_append_getLast hne, hfront]
  by_cases hinit : pieces.dropLast = []
  · exact ⟨front, by rw [hinit, List.nil_append, String.intercalate_singleton]⟩
  · refine ⟨"\n".intercalate pieces.dropLast ++ "\n" ++ front, ?_⟩
    rw [String.intercalate_append_of_ne_nil hinit (List.cons_ne_nil _ _),
      String.intercalate_singleton]
    simp only [String.append_assoc]

/-- What is brought into scope is a line each. -/
lemma textOfLines_useText (imports : List String) :
    textOfLines (imports.map useText) =
      String.join (imports.map fun path => "use " ++ path ++ ";\n") := by
  have huse : ∀ path, useText path = "use " ++ path ++ ";" := fun path => by
    simp [useText, String.append_assoc]
  cases imports with
  | nil => decide
  | cons path paths =>
      obtain ⟨front, hfront⟩ : ∃ front,
          "\n".intercalate ((path :: paths).map useText) = front ++ ";" := by
        refine exists_intercalate_eq (List.cons_ne_nil _ _) fun s hs => ?_
        obtain ⟨p, -, rfl⟩ := List.mem_map.mp hs
        exact ⟨"use " ++ p, huse p⟩
      have htext : textOfLines ((path :: paths).map useText) = front ++ ";" ++ "\n" :=
        source_eq_of_text (c := ';') 0 (by simp) (by decide) (hfront.trans String.append_empty.symm)
      rw [htext, ← hfront, List.map_cons, intercalate_append_newline, ← List.map_cons,
        List.map_map]
      congr 2
      funext p
      rw [Function.comp_apply, huse, String.append_assoc]
      rfl

/-! ### The source of an export -/

namespace Exported

variable (x : Exported)

/-- The lines of an export, from the attribute to the brace. -/
lemma exists_block_eq (body : List String) :
    ∃ middle, x.wrapper.block body = "#[no_mangle]" :: middle ++ ["\x7d"] ∧ middle ≠ [] := by
  rw [Wrapper.block, Signature.header, x.exported, if_pos rfl, ← List.append_assoc]
  exact ⟨_, rfl, List.cons_ne_nil _ _⟩

/-- The text of an export, from the attribute to the brace. -/
lemma exists_text_eq (body : List String) :
    ∃ middle, "\n".intercalate (x.wrapper.block body) ++ "\n" =
      "#[no_mangle]\n" ++ middle ++ "\x7d\n" := by
  obtain ⟨middle, hblock, hmiddle⟩ := x.exists_block_eq body
  refine ⟨"\n".intercalate middle ++ "\n", ?_⟩
  rw [hblock, List.cons_append, String.intercalate_cons_of_ne_nil (by simp),
    String.intercalate_append_of_ne_nil hmiddle (List.cons_ne_nil _ _),
    String.intercalate_singleton]
  simp only [String.append_assoc]
  rfl

end Exported

/-- The parts of the library that are not empty, with an empty line between them. -/
lemma librarySource_eq {c : Crate} {uses exports : String}
    (huses : textOfLines (c.imports.map useText) = uses) (hexports : c.emitter.source = exports) :
    c.librarySource = uses ++ (if uses = "" ∨ exports = "" then "" else "\n") ++ exports := by
  rw [Crate.librarySource, huses, hexports]
  by_cases hu : uses = "" <;> by_cases he : exports = "" <;> simp [hu, he]

/-- The wrappers in their order, each as it is written alone. -/
lemma Records.exists_sources {exports : List Exported} {imports : List String} {c : Crate}
    (h : Records exports imports c) : ∃ sources,
      List.Forall₂ (fun x s => Statement.sourceOf x.wrapper.plan = .ok s) exports sources ∧
        (∀ s ∈ sources, ∃ middle, s = "#[no_mangle]\n" ++ middle ++ "\x7d\n") ∧
        c.emitter.source = "\n".intercalate sources := by
  obtain ⟨blocks, hblocks, hlines⟩ := h.lines
  have hshape : ∀ block ∈ blocks, block ≠ [] ∧ ∃ middle,
      "\n".intercalate block ++ "\n" = "#[no_mangle]\n" ++ middle ++ "\x7d\n" := by
    intro block hblock
    obtain ⟨x, -, body, -, rfl⟩ := Listwise.exists_of_mem_right hblocks hblock
    obtain ⟨middle, hmiddle, -⟩ := x.exists_block_eq body
    exact ⟨by simp [hmiddle], x.exists_text_eq body⟩
  have hsources : ∀ s ∈ blocks.map fun block => "\n".intercalate block ++ "\n",
      ∃ middle, s = "#[no_mangle]\n" ++ middle ++ "\x7d\n" := by
    intro s hs
    obtain ⟨block, hblock, rfl⟩ := List.mem_map.mp hs
    exact (hshape block hblock).2
  refine ⟨_, ?_, hsources, ?_⟩
  · rw [List.forall₂_map_right_iff]
    refine hblocks.imp fun x block => ?_
    rintro ⟨body, hbody, rfl⟩
    exact sourceOf_eq hbody
  · have htext := intercalate_flatMap fun block hblock => (hshape block hblock).1
    rw [← hlines] at htext
    cases blocks with
    | nil =>
        rw [List.flatMap_nil] at hlines
        rw [Emitter.source, hlines]
        rfl
    | cons block blocks =>
        obtain ⟨front, hfront⟩ := exists_intercalate_eq (List.cons_ne_nil _ _) fun s hs => by
          obtain ⟨middle, hmiddle⟩ := hsources s hs
          exact ⟨_, hmiddle⟩
        have hsplit : front ++ "\x7d\n" = front ++ "\x7d" ++ "\n" := by
          rw [String.append_assoc]
          rfl
        rw [source_eq_of_text (c := '\x7d') 1 (by simp) (by decide)
          (htext.trans (hfront.trans hsplit)), ← hsplit, ← hfront]
        rfl

/-! ### The count -/

/-- An operation on files logs nothing, and if it fails it is for a file. -/
structure OnFiles {α : Type} (x : Run α) : Prop where
  journal_eq : ∀ w, (after x w).journal = w.journal
  of_error : ∀ w f w', x w = .error f w' → ∃ fault, f = .file fault

namespace OnFiles

variable {α β : Type}

lemma pure (a : α) : OnFiles (Pure.pure a : Run α) := ⟨fun _ => rfl, fun _ _ _ => nofun⟩

lemma filing (x : Filing α) : OnFiles (Run.filing x) := by
  constructor
  · intro w
    rw [after, Run.filing]
    cases x w.files <;> rfl
  · intro w f w' h
    rw [Run.filing] at h
    cases hx : x w.files with
    | ok a t =>
        rw [hx] at h
        cases h
    | error fault t =>
        rw [hx] at h
        cases h
        exact ⟨fault, rfl⟩

lemma bind {x : Run α} {f : α → Run β} (hx : OnFiles x) (hf : ∀ a, OnFiles (f a)) :
    OnFiles (x >>= f) := by
  constructor
  · intro w
    have hfirst := hx.journal_eq w
    cases h : x w with
    | ok a w' =>
        rw [after_of_ok h] at hfirst
        rw [after_bind_of_ok h, (hf a).journal_eq, hfirst]
    | error fault w' =>
        rw [after_of_error h] at hfirst
        rw [after_bind_of_error h, hfirst]
  · intro w fault w' h
    cases hrun : x w with
    | ok a w₁ =>
        rw [run_bind hrun] at h
        exact (hf a).of_error w₁ fault w' h
    | error fault' w₁ =>
        rw [run_bind_of_error hrun] at h
        cases h
        exact hx.of_error w fault w' hrun

end OnFiles

/-- The journal goes on from another one. -/
def Continues (j : Journal) (w : World) : Prop := ∃ notes, w.journal = j.addAll notes

lemma keeps_log {j : Journal} (level : Level) (text : String) :
    Keeps (Continues j) (Run.log level text) := by
  rintro w ⟨notes, hnotes⟩
  have happend : j.addAll (notes ++ [.ofText level text]) =
      (j.addAll notes).add (.ofText level text) := List.foldl_append
  exact ⟨notes ++ [.ofText level text], by rw [happend, ← hnotes]; rfl⟩

lemma keeps_format {j : Journal} (formatter : Formatter) (command : List String)
    (paths : List Path) : Keeps (Continues j) (Run.format formatter command paths) := by
  refine (keeps_log _ _).bind fun _ => ?_
  refine .bind (fun w h => h) fun _ => ?_
  cases formatter with
  | succeeds => exact .pure _
  | refuses code output => exact .throw _
  | absent => exact .throw _

/-- A text is logged, unless a file could not be written before, and then nothing is logged. -/
def LogsFirst {α : Type} (level : Level) (text : String) (x : Run α) : Prop := ∀ w,
  (∃ fault w', x w = .error (.file fault) w' ∧ w'.journal = w.journal) ∨
    Continues (w.journal.log level text) (after x w)

namespace LogsFirst

variable {α β : Type} {level : Level} {text : String}

lemma log {f : Unit → Run α} (hf : ∀ j, Keeps (Continues j) (f ())) :
    LogsFirst level text (Run.log level text >>= f) := by
  intro w
  have hlog : Run.log level text w = .ok () { w with journal := w.journal.log level text } := rfl
  refine Or.inr ?_
  rw [after_bind_of_ok hlog]
  exact hf _ _ ⟨[], rfl⟩

lemma bind {x : Run α} {f : α → Run β} (hx : OnFiles x) (hf : ∀ a, LogsFirst level text (f a)) :
    LogsFirst level text (x >>= f) := by
  intro w
  have hfirst := hx.journal_eq w
  cases h : x w with
  | ok a w' =>
      rw [after_of_ok h] at hfirst
      rw [after_bind_of_ok h, run_bind h, ← hfirst]
      exact hf a w'
  | error f w' =>
      rw [after_of_error h] at hfirst
      obtain ⟨fault, rfl⟩ := hx.of_error w f w' h
      exact Or.inl ⟨fault, w', run_bind_of_error h, hfirst⟩

end LogsFirst

lemma onFiles_writeFile (path : Path) (text : String) : OnFiles (Run.writeFile path text) :=
  (OnFiles.filing _).bind fun _ => .filing _

/-- What is logged about the exports of a crate. -/
def exportsText (folder : Path) (count : Nat) : String :=
  "Wrote [path]" ++ Text.escapeMarkup folder.text ++ s!"[/path] ({count} exported functions)"

/-- Writing a crate without open scopes logs the number of its symbols. -/
lemma logsFirst_flush {c : Crate} (h : c.emitter.frames = []) (formatter : Formatter) :
    LogsFirst .info (exportsText c.folder c.symbols.length) (c.flush formatter) := by
  rw [Crate.flush, h]
  refine .bind (.filing _) fun _ => ?_
  refine .bind ((onFiles_writeFile _ _).bind fun _ => .pure _) fun script => ?_
  rw [discard_eq_bind]
  refine .bind (((onFiles_writeFile _ _).bind fun _ => .pure _).bind fun _ => .pure ()) fun _ => ?_
  refine .bind (.filing _) fun _ => .log fun j => ?_
  refine .ite_bind (keeps_format _ _ _) fun _ => ?_
  exact (keeps_log _ _).bind fun _ => .pure _

/-! ### All together -/

/-- The records of a crate are those of the exports, and decide what is written. -/
structure Consistent (exports : List Exported) (imports : List String) (c : Crate) : Prop where
  signatures : c.signatures = exports.map fun x => x.wrapper.signature
  nodup_names : (c.signatures.map Signature.name).Nodup
  /-- The symbols were claimed in the order of the signatures. -/
  claimed : c.symbols.map Prod.fst = c.signatures.map Signature.name
  /-- The descriptors are those of the functions, in their order. -/
  described : c.descriptors.map Descriptor.symbol =
    (exports.filter (·.source.isFunction)).map fun x => x.wrapper.signature.name
  closed : c.emitter.frames = []
  imported : c.imports = imports
  /-- Every export is written as it would be alone, from its attribute to its brace, and an empty
  line stands between two of them. -/
  source : ∃ sources,
    List.Forall₂ (fun x s => Statement.sourceOf x.wrapper.plan = .ok s) exports sources ∧
      (∀ s ∈ sources, ∃ middle, s = "#[no_mangle]\n" ++ middle ++ "\x7d\n") ∧
      c.librarySource = String.join (imports.map fun path => "use " ++ path ++ ";\n") ++
        (if imports = [] ∨ exports = [] then "" else "\n") ++ "\n".intercalate sources ∧
      sources.length = c.symbols.length
  /-- When the crate is written the number of the exports is logged, before anything else, or else a
  file could not be written and nothing is logged. -/
  counted : ∀ formatter world,
    (∃ fault world', c.flush formatter world = .error (.file fault) world' ∧
      world'.journal = world.journal) ∨
    ∃ notes, (after (c.flush formatter) world).journal =
      (world.journal.log .info (exportsText c.folder exports.length)).addAll notes

/-- The functions are the exports with a descriptor, and have its symbol. -/
lemma map_symbol_eq (exports : List Exported) :
    (exports.filterMap fun x => x.source.descriptor?).map Descriptor.symbol =
      (exports.filter (·.source.isFunction)).map Exported.symbol := by
  induction exports with
  | nil => rfl
  | cons x exports ih =>
      cases hsource : x.source with
      | function d =>
          have hdescriptor : x.source.descriptor? = some d := by rw [hsource]; rfl
          have hfunction : x.source.isFunction = true := by rw [hsource]; rfl
          have hsymbol := x.symbol_eq_of_descriptor? hdescriptor
          rw [List.filterMap_cons, hdescriptor, List.filter_cons, if_pos hfunction, List.map_cons,
            List.map_cons, ih, hsymbol]
      | destructor name params =>
          have hdescriptor : x.source.descriptor? = none := by rw [hsource]; rfl
          have hfunction : ¬x.source.isFunction = true := by rw [hsource]; exact Bool.false_ne_true
          rw [List.filterMap_cons, hdescriptor, List.filter_cons, if_neg hfunction, ih]

lemma Records.consistent {exports : List Exported} {imports : List String} {c : Crate}
    (h : Records exports imports c) : Consistent exports imports c := by
  have hnames : c.signatures.map Signature.name = exports.map Exported.symbol := by
    rw [h.signatures, List.map_map]
    rfl
  have hlength : exports.length = c.symbols.length := by rw [h.symbols, List.length_map]
  obtain ⟨sources, hsources, hshape, hsource⟩ := h.exists_sources
  constructor
  case signatures => exact h.signatures
  case nodup_names => exact hnames ▸ h.nodup
  case claimed =>
    rw [hnames, h.symbols, List.map_map]
    rfl
  case described =>
    rw [h.descriptors]
    exact map_symbol_eq exports
  case closed => exact h.closed
  case imported => exact h.imports
  case source =>
    refine ⟨sources, hsources, hshape, ?_, hsources.length_eq.symm.trans hlength⟩
    have huses : String.join (imports.map fun path => "use " ++ path ++ ";\n") = "" ↔
        imports = [] := by
      cases imports <;> simp
    have hexports : "\n".intercalate sources = "" ↔ exports = [] := by
      constructor
      · intro hempty
        by_contra hne
        have hsources : sources ≠ [] := by
          rintro rfl
          exact hne (List.forall₂_nil_right_iff.mp hsources)
        obtain ⟨front, hfront⟩ := exists_intercalate_eq hsources fun s hs => by
          obtain ⟨middle, hmiddle⟩ := hshape s hs
          exact ⟨_, hmiddle⟩
        simp [hfront] at hempty
      · rintro rfl
        cases hsources
        rfl
    rw [librarySource_eq (textOfLines_useText c.imports) hsource, h.imports]
    simp only [huses, hexports]
  case counted =>
    rw [hlength]
    exact logsFirst_flush h.closed

/-- **Consistency of a crate.** After any registrations on a new crate, however many of them failed
and at whatever place, the records of the crate agree, no scope is open, and the library is made of
the exports that are on record, one behind the other. -/
theorem consistent_runAll (package : String) (output : Path) (settings : Settings)
    (calls : List Registration) : ∃ exports, Consistent exports
      (calls.filterMap Registration.path?) ((Crate.new package output settings).runAll calls) := by
  obtain ⟨exports, h⟩ := recorded_runAll (recorded_new package output settings) calls
  exact ⟨exports, h.consistent⟩

end AbiBridge
