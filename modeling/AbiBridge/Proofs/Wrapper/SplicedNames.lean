import AbiBridge.Proofs.Source.Plain
import AbiBridge.Proofs.Wrapper.Emission
import AbiBridge.Proofs.Wrapper.Scoping
import Mathlib.Data.List.TakeWhile

/-!
Names in the text of a wrapper.

The names of a descriptor are spliced into the text of its wrapper as they are. The checks let a
single line feed stand behind a name, so they are no guard against line breaks, nor against two
names for one identifier.

* `Descriptor.givenNames`: the names that a descriptor is given with, those in its types included;
* `Name.identifier`: what is read of a name as an identifier;
* `BoundaryType.Clean`: types with words for names, whose native texts are plain;
* `splicesNames_of_compile`: the given names are words up to the line feed behind them, and where
  none has a line feed, the wrapper is plain and its parameters are different identifiers.
-/

namespace AbiBridge

open Emitter Outcome

/-! ### Words -/

namespace Name

/-- What is read of a name as an identifier. -/
def identifier (s : String) : String := String.ofList (s.toList.takeWhile isContinue)

lemma identifier_of_isWord {s : String} (h : isWord s.toList = true) : identifier s = s := by
  rw [identifier, List.takeWhile_eq_self_iff.mpr (isContinue_of_isWord h), String.ofList_toList]

lemma identifier_append_feed (s : String) : identifier (s ++ "\n") = identifier s := by
  have hfeed : "\n".toList = ['\n'] := rfl
  rw [identifier, identifier, String.toList_append, hfeed, List.takeWhile_append]
  split
  · next hall =>
    rw [List.takeWhile_cons_of_neg (by decide), List.append_nil,
      List.takeWhile_prefix isContinue |>.eq_of_length hall]
  · rfl

/-- A word, up to a single line feed behind it. -/
def WordUpToFeed (s : String) : Prop :=
  ∃ word, isWord word = true ∧ (s.toList = word ∨ s.toList = word ++ ['\n'])

lemma IsName.wordUpToFeed {s : String} (h : IsName s) : WordUpToFeed s := by
  have hid := h.identifier
  rw [isIdentifier, dropNewline] at hid
  split at hid
  · next hlast =>
    exact ⟨_, hid, Or.inr (List.dropLast_append_getLast? _ hlast).symm⟩
  · exact ⟨_, hid, Or.inl rfl⟩

lemma IsPath.wordUpToFeed {path : String} (h : IsPath path) :
    ∀ s ∈ segments path, WordUpToFeed s := by
  obtain ⟨front, last, hsegments, hlast, hfront⟩ := h
  have hqualifiers : ∀ s ∈ pathQualifiers, isWord s.toList = true := by decide
  rw [hsegments, List.forall_mem_append, List.forall_mem_singleton]
  refine ⟨fun s hs => ?_, hlast.wordUpToFeed⟩
  rcases hfront s hs with hname | hqualifier
  · exact hname.wordUpToFeed
  · exact ⟨_, hqualifiers s hqualifier, Or.inl rfl⟩

namespace WordUpToFeed

variable {s t : String}

/-- Without a line feed it is a word. -/
lemma isWord (h : WordUpToFeed s) (hfeed : '\n' ∉ s.toList) : isWord s.toList = true := by
  obtain ⟨word, hword, heq | heq⟩ := h
  · rw [heq]
    exact hword
  · rw [heq] at hfeed
    exact absurd (List.mem_append_right _ (List.mem_singleton_self _)) hfeed

/-- The line feed is not read. -/
lemma identifier_eq (h : WordUpToFeed s) :
    s = Name.identifier s ∨ s = Name.identifier s ++ "\n" := by
  obtain ⟨word, hword, hs⟩ := h
  rw [← String.toList_ofList (l := word)] at hword
  have hread := identifier_of_isWord hword
  rcases hs with heq | heq
  · have hs : s = String.ofList word := by rw [← heq, String.ofList_toList]
    rw [hs, hread]
    exact Or.inl rfl
  · have hs : s = String.ofList word ++ "\n" := by
      rw [← String.toList_inj, heq, String.toList_append, String.toList_ofList]
      rfl
    rw [hs, identifier_append_feed, hread]
    exact Or.inr rfl

/-- Two names are the same identifier if they differ in no more than the line feed. -/
lemma identifier_eq_iff (hs : WordUpToFeed s) (ht : WordUpToFeed t) :
    Name.identifier s = Name.identifier t ↔ s = t ∨ s = t ++ "\n" ∨ t = s ++ "\n" := by
  constructor
  · intro heq
    have hs := hs.identifier_eq
    have ht := ht.identifier_eq
    rw [heq] at hs
    generalize Name.identifier t = name at hs ht
    rcases hs with rfl | rfl <;> rcases ht with rfl | rfl
    · exact Or.inl rfl
    · exact Or.inr (Or.inr rfl)
    · exact Or.inr (Or.inl rfl)
    · exact Or.inl rfl
  · rintro (rfl | rfl | rfl)
    · rfl
    · exact identifier_append_feed t
    · exact (identifier_append_feed s).symm

end WordUpToFeed

/-- A word with more behind it. -/
lemma isWord_append {s t : String} (hs : isWord s.toList = true)
    (ht : t.toList.all isContinue = true) : isWord (s ++ t).toList = true := by
  obtain ⟨c, r, heq, hc, hr⟩ := isWord_iff.mp hs
  have happend : (s ++ t).toList = c :: (r ++ t.toList) := by
    rw [String.toList_append, heq, List.cons_append]
  exact isWord_iff.mpr ⟨c, _, happend, hc, List.forall_mem_append.mpr ⟨hr, List.all_eq_true.mp ht⟩⟩

lemma baseName_mem_segments (path : String) : baseName path ∈ segments path := by
  rw [baseName, List.getLastD_eq_getLast?,
    List.getLast?_eq_getLast_of_ne_nil (segments_ne_nil path)]
  exact List.getLast_mem _

/-- A word is plain. -/
lemma plainText_of_isWord {s : String} (h : isWord s.toList = true) : PlainText s := by
  intro c hc
  rcases toNat_of_isContinue (isContinue_of_isWord h c hc) with rfl | hrange
  · decide
  · have hprintable : 32 ≤ c.toNat ∧ c.toNat ≤ 126 := by omega
    exact hprintable

/-- A character of a text is a colon, or stands in a piece between the double colons. -/
lemma mem_split {cs : List Char} {c : Char} (hc : c ∈ cs) :
    c = ':' ∨ ∃ piece ∈ split cs, c ∈ piece := by
  fun_induction split cs with
  | case1 => exact absurd hc List.not_mem_nil
  | case2 r ih =>
      rcases List.mem_cons.mp hc with rfl | hc
      · exact Or.inl rfl
      rcases List.mem_cons.mp hc with rfl | hc
      · exact Or.inl rfl
      obtain hcolon | ⟨piece, hpiece, hmem⟩ := ih hc
      · exact Or.inl hcolon
      · exact Or.inr ⟨piece, List.mem_cons_of_mem _ hpiece, hmem⟩
  | case3 d r _ hsplit ih =>
      exact absurd hsplit (split_ne_nil r)
  | case4 d r _ piece pieces hsplit ih =>
      rcases List.mem_cons.mp hc with rfl | hc
      · exact Or.inr ⟨c :: piece, List.mem_cons_self, List.mem_cons_self⟩
      rw [hsplit] at ih
      obtain hcolon | ⟨other, hother, hmem⟩ := ih hc
      · exact Or.inl hcolon
      rcases List.mem_cons.mp hother with rfl | hother
      · exact Or.inr ⟨_, List.mem_cons_self, List.mem_cons_of_mem _ hmem⟩
      · exact Or.inr ⟨other, List.mem_cons_of_mem _ hother, hmem⟩

/-- A path of words is plain. -/
lemma plainText_of_segments {path : String}
    (h : ∀ s ∈ segments path, isWord s.toList = true) : PlainText path := by
  intro c hc
  obtain rfl | ⟨piece, hpiece, hmem⟩ := mem_split hc
  · decide
  · have hword := h _ (List.mem_map_of_mem hpiece)
    refine plainText_of_isWord hword c ?_
    rw [String.toList_ofList]
    exact hmem

end Name

/-! ### Names in types -/

namespace BoundaryType

mutual

/-- The names in a type, at any depth: the segments of paths, and variants. -/
def names : BoundaryType → List String
  | struct name params => Name.segments name ++ namesAll params
  | sharedRef inner | mutRef inner => names inner
  | sequence elem => names elem
  | enum name variants => Name.segments name ++ variants
  | primitive _ | unknown => []

/-- The names in a list of types. -/
def namesAll : List BoundaryType → List String
  | [] => []
  | t :: ts => names t ++ namesAll ts

end

lemma mem_namesAll {ts : List BoundaryType} {s : String} :
    s ∈ namesAll ts ↔ ∃ t ∈ ts, s ∈ t.names := by
  induction ts with
  | nil => simp [namesAll]
  | cons t ts ih => rw [namesAll, List.mem_append, ih, List.exists_mem_cons_iff]

lemma Named.wordUpToFeed {t : BoundaryType} (h : t.Named) : ∀ s ∈ t.names, Name.WordUpToFeed s := by
  induction h with
  | primitive name => exact fun s hs => absurd hs List.not_mem_nil
  | struct hpath _ _ ih =>
      rw [names, List.forall_mem_append]
      refine ⟨hpath.wordUpToFeed, fun s hs => ?_⟩
      obtain ⟨t, ht, hs⟩ := mem_namesAll.mp hs
      exact ih t ht s hs
  | sharedRef _ ih => exact ih
  | mutRef _ ih => exact ih
  | sequence _ ih => exact ih
  | enum hpath hvariants =>
      rw [names, List.forall_mem_append]
      exact ⟨hpath.wordUpToFeed, fun s hs => (hvariants s hs).wordUpToFeed⟩

/-- Types with words for names and plain texts for scalars. -/
inductive Clean : BoundaryType → Prop where
  | primitive {name : String} (plain : PlainText name) : Clean (.primitive name)
  | struct {name : String} {params : List BoundaryType}
      (path : ∀ s ∈ Name.segments name, Name.isWord s.toList = true)
      (params_clean : ∀ t ∈ params, Clean t) : Clean (.struct name params)
  | sharedRef {inner : BoundaryType} (clean : Clean inner) : Clean (.sharedRef inner)
  | mutRef {inner : BoundaryType} (clean : Clean inner) : Clean (.mutRef inner)
  | sequence {elem : BoundaryType} (clean : Clean elem) : Clean (.sequence elem)
  | enum {name : String} {variants : List String}
      (path : ∀ s ∈ Name.segments name, Name.isWord s.toList = true)
      (variants_words : ∀ v ∈ variants, Name.isWord v.toList = true) : Clean (.enum name variants)

lemma Named.clean {t : BoundaryType} (h : t.Named)
    (hwords : ∀ s ∈ t.names, Name.isWord s.toList = true)
    (hscalars : ∀ s ∈ t.scalars, s ∈ primitiveNames) : t.Clean := by
  have hplain : ∀ s ∈ primitiveNames, PlainText s := by decide
  induction h with
  | primitive name => exact .primitive (hplain name (hscalars name List.mem_cons_self))
  | struct _ _ _ ih =>
      rw [names, List.forall_mem_append] at hwords
      refine .struct hwords.1 fun t ht => ih t ht (fun s hs => ?_) fun s hs => ?_
      · exact hwords.2 s (mem_namesAll.mpr ⟨t, ht, hs⟩)
      · exact hscalars s (scalars_subset_scalarsAll ht hs)
  | sharedRef _ ih => exact .sharedRef (ih hwords hscalars)
  | mutRef _ ih => exact .mutRef (ih hwords hscalars)
  | sequence _ ih => exact .sequence (ih hwords hscalars)
  | enum _ _ =>
      rw [names, List.forall_mem_append] at hwords
      exact .enum hwords.1 hwords.2

/-! ### Plain native texts -/

/-- A name with arguments behind it. -/
lemma plainText_applied {name opening : String} {texts : List String} (hname : PlainText name)
    (hopening : PlainText opening) (htexts : ∀ text ∈ texts, PlainText text) :
    PlainText (applied name opening texts) := by
  cases texts with
  | nil => exact hname
  | cons text texts =>
      exact ((hname.append hopening).append (.intercalate (by decide) htexts)).followed

/-- The native texts of a list of types. -/
lemma plainText_of_nativeAll {ts : List BoundaryType} {texts : List String}
    (h : ∀ t ∈ ts, ∀ text, t.native = .ok text → PlainText text)
    (htexts : nativeAll ts = .ok texts) : ∀ text ∈ texts, PlainText text := by
  rw [nativeAll_eq_mapM, mapM_eq_ok] at htexts
  intro text htext
  obtain ⟨t, ht, hnative⟩ := Listwise.exists_of_mem_right htexts htext
  exact h t ht text hnative

namespace Clean

variable {t : BoundaryType} {text : String}

/-- The native text of a clean type is plain. -/
theorem plainText_native (h : t.Clean) (hnative : t.native = .ok text) : PlainText text := by
  induction h generalizing text with
  | primitive hplain =>
      cases pure_eq_ok.mp hnative
      exact hplain
  | struct hpath _ ih =>
      obtain ⟨texts, htexts, hnative⟩ := bind_eq_ok.mp hnative
      cases pure_eq_ok.mp hnative
      exact plainText_applied (Name.plainText_of_segments hpath) (by decide)
        (plainText_of_nativeAll (fun t ht text => ih t ht) htexts)
  | sharedRef _ ih =>
      obtain ⟨inner, hinner, hnative⟩ := bind_eq_ok.mp hnative
      cases pure_eq_ok.mp hnative
      exact (ih hinner).preceded
  | mutRef _ ih =>
      obtain ⟨inner, hinner, hnative⟩ := bind_eq_ok.mp hnative
      cases pure_eq_ok.mp hnative
      exact (ih hinner).preceded
  | sequence _ ih =>
      obtain ⟨elem, helem, hnative⟩ := bind_eq_ok.mp hnative
      cases pure_eq_ok.mp hnative
      exact (ih helem).preceded.followed
  | enum hpath _ =>
      cases pure_eq_ok.mp hnative
      exact Name.plainText_of_segments hpath

/-- So is the scalar that carries an argument of a clean type. -/
lemma plainText_encodeArgument (h : t.Clean) {encoding : Encoding}
    (hencoding : t.encodeArgument = .ok encoding) : PlainText encoding.scalar := by
  induction h generalizing encoding with
  | primitive hplain =>
      cases pure_eq_ok.mp hencoding
      exact hplain
  | sequence helem ih =>
      cases helem with
      | sequence _ =>
          obtain ⟨inner, -, hthrow⟩ := bind_eq_ok.mp hencoding
          cases hthrow
      | _ =>
          obtain ⟨inner, hinner, hencoding⟩ := bind_eq_ok.mp hencoding
          cases pure_eq_ok.mp hencoding
          exact (ih hinner).preceded
  | enum _ _ =>
      cases pure_eq_ok.mp hencoding
      decide
  | _ =>
      cases pure_eq_ok.mp hencoding
      exact plainText_opaquePointer

/-- And the scalar that carries a result. -/
lemma plainText_encodeResult (h : t.Clean) {encoding : Encoding}
    (hencoding : t.encodeResult = .ok encoding) : PlainText encoding.scalar := by
  cases h with
  | primitive hplain =>
      cases pure_eq_ok.mp hencoding
      exact hplain
  | sequence helem =>
      cases helem with
      | sequence _ =>
          obtain ⟨inner, -, hthrow⟩ := bind_eq_ok.mp hencoding
          cases hthrow
      | enum _ _ => cases hencoding
      | _ =>
          cases pure_eq_ok.mp hencoding
          exact plainText_opaquePointer.preceded
  | enum _ _ => cases hencoding
  | _ =>
      cases pure_eq_ok.mp hencoding
      exact plainText_opaquePointer

/-- A handle points to a clean type. -/
lemma target (h : t.Clean) {name : String} {handle : Handle} (hhandle : handle ∈ t.handles name) :
    handle.target.Clean := by
  cases h with
  | struct hpath hparams =>
      rw [List.mem_singleton.mp hhandle]
      exact .struct hpath hparams
  | sharedRef hinner =>
      rw [List.mem_singleton.mp hhandle]
      exact hinner
  | mutRef hinner =>
      rw [List.mem_singleton.mp hhandle]
      exact hinner
  | _ => exact absurd hhandle List.not_mem_nil

end Clean

end BoundaryType

/-! ### Names of descriptors -/

namespace Descriptor

/-- The names that a descriptor is given with, those in its types included. -/
def givenNames (d : Descriptor) : List String :=
  d.funcName :: (d.exportName.toList ++ d.args.map Prod.fst ++
    BoundaryType.namesAll (d.owner.toList ++ d.args.map Prod.snd ++ d.ret.toList))

/-- Descriptors with plain names and clean types. -/
structure Clean (d : Descriptor) : Prop where
  funcName : PlainText d.funcName
  symbol : PlainText d.symbol
  owner : ∀ t ∈ d.owner, t.Clean
  args : ∀ a ∈ d.args, PlainText a.1 ∧ a.2.Clean
  result : ∀ t ∈ d.ret, t.Clean

section Words

variable {d : Descriptor} (hwords : ∀ s ∈ d.givenNames, Name.isWord s.toList = true)

include hwords

lemma isWord_symbol : Name.isWord d.symbol.toList = true := by
  obtain ⟨hfunc, hrest⟩ := List.forall_mem_cons.mp hwords
  rw [List.forall_mem_append, List.forall_mem_append] at hrest
  obtain ⟨⟨hexport, -⟩, htypes⟩ := hrest
  have hdefault : Name.isWord d.defaultSymbol.toList = true := by
    rw [defaultSymbol.eq_def]
    split
    · next name params howner =>
      have hbase : Name.isWord (Name.baseName name).toList = true := by
        refine htypes _ (BoundaryType.mem_namesAll.mpr ⟨.struct name params, ?_, ?_⟩)
        · rw [howner]
          exact List.mem_cons_self
        · exact List.mem_append_left _ (Name.baseName_mem_segments name)
      have hfront : Name.isWord (Name.baseName name ++ "_").toList = true :=
        Name.isWord_append hbase (by decide)
      exact Name.isWord_append hfront (List.all_eq_true.mpr (Name.isContinue_of_isWord hfunc))
    · exact hfunc
  rw [symbol.eq_def]
  split
  · next name hname =>
    split
    · exact hdefault
    · exact hexport name (Option.mem_toList.mpr hname)
  · exact hdefault

lemma isWord_argName : ∀ a ∈ d.args, Name.isWord a.1.toList = true := by
  intro a ha
  refine hwords a.1 (List.mem_cons_of_mem _ (List.mem_append_left _ (List.mem_append_right _ ?_)))
  exact List.mem_map_of_mem ha

/-- The names of arguments and of the lengths beside them. -/
lemma isWord_slotNames : ∀ s ∈ d.args.flatMap slotNames, Name.isWord s.toList = true := by
  intro s hs
  obtain ⟨⟨name, t⟩, ha, hs⟩ := List.mem_flatMap.mp hs
  have hname := isWord_argName hwords _ ha
  have hcompanion : Name.isWord (companionName name).toList = true :=
    Name.isWord_append hname (by decide)
  cases t with
  | sequence elem =>
      rcases List.mem_cons.mp hs with rfl | hs
      · exact hname
      · rw [List.mem_singleton.mp hs]
        exact hcompanion
  | _ =>
      rw [List.mem_singleton.mp hs]
      exact hname

end Words

namespace Acceptable

variable {d : Descriptor}

lemma named (h : d.Acceptable) :
    ∀ t ∈ d.owner.toList ++ d.args.map Prod.snd ++ d.ret.toList, t.Named := by
  rw [List.forall_mem_append, List.forall_mem_append]
  refine ⟨⟨fun t ht => (h.owner t (Option.mem_toList.mp ht)).2, fun t ht => ?_⟩,
    fun t ht => (h.result t (Option.mem_toList.mp ht)).1⟩
  obtain ⟨a, ha, rfl⟩ := List.mem_map.mp ht
  exact (h.argTypes a ha).1

/-- The given names are words, up to a line feed. -/
lemma wordUpToFeed (h : d.Acceptable) : ∀ s ∈ d.givenNames, Name.WordUpToFeed s := by
  rw [givenNames, List.forall_mem_cons, List.forall_mem_append, List.forall_mem_append]
  refine ⟨h.funcName.wordUpToFeed, ⟨fun s hs => ?_, fun s hs => ?_⟩, fun s hs => ?_⟩
  · exact (h.exportName s (Option.mem_toList.mp hs)).wordUpToFeed
  · obtain ⟨a, ha, rfl⟩ := List.mem_map.mp hs
    exact (h.argNames a ha).1.wordUpToFeed
  · obtain ⟨t, ht, hs⟩ := BoundaryType.mem_namesAll.mp hs
    exact (h.named t ht).wordUpToFeed s hs

/-- The types of a descriptor are clean. -/
lemma clean_of_mem (h : d.Acceptable) (hwords : ∀ s ∈ d.givenNames, Name.isWord s.toList = true)
    (hscalars : ∀ s ∈ d.scalars, s ∈ BoundaryType.primitiveNames) :
    ∀ t ∈ d.owner.toList ++ d.args.map Prod.snd ++ d.ret.toList, t.Clean := by
  intro t ht
  refine (h.named t ht).clean (fun s hs => hwords s ?_) fun s hs => hscalars s ?_
  · exact List.mem_cons_of_mem _ (List.mem_append_right _
      (BoundaryType.mem_namesAll.mpr ⟨t, ht, hs⟩))
  · exact BoundaryType.scalars_subset_scalarsAll ht hs

lemma clean (h : d.Acceptable) (hwords : ∀ s ∈ d.givenNames, Name.isWord s.toList = true)
    (hscalars : ∀ s ∈ d.scalars, s ∈ BoundaryType.primitiveNames) : d.Clean := by
  have hclean := h.clean_of_mem hwords hscalars
  rw [List.forall_mem_append, List.forall_mem_append] at hclean
  obtain ⟨⟨howner, hargs⟩, hret⟩ := hclean
  constructor
  case funcName => exact Name.plainText_of_isWord (hwords _ List.mem_cons_self)
  case symbol => exact Name.plainText_of_isWord (isWord_symbol hwords)
  case owner => exact fun t ht => howner t (Option.mem_toList.mpr ht)
  case args =>
    exact fun a ha => ⟨Name.plainText_of_isWord (isWord_argName hwords a ha),
      hargs a.2 (List.mem_map_of_mem ha)⟩
  case result => exact fun t ht => hret t (Option.mem_toList.mpr ht)

end Acceptable

end Descriptor

/-! ### Parameters -/

/-- The names of the parameters. -/
lemma Assembly.isWord_parameters {d : Descriptor} (a : Assembly d)
    (hwords : ∀ s ∈ d.givenNames, Name.isWord s.toList = true) :
    ∀ s ∈ a.params.map Parameter.name, Name.isWord s.toList = true := by
  obtain ⟨args, outs, hparams, hargs, houts⟩ := exists_rows a.params_eq
  rw [Descriptor.map_name_eq hparams hargs, List.forall_mem_append, List.forall_mem_append]
  refine ⟨⟨fun s hs => ?_, Descriptor.isWord_slotNames hwords⟩, fun s hs => ?_⟩
  · split at hs
    · rw [List.mem_singleton.mp hs]
      decide
    · exact absurd hs List.not_mem_nil
  · have hout : ∀ s ∈ [resultName, resultLengthName], Name.isWord s.toList = true := by decide
    exact hout s (houts.names.subset hs)

lemma Parameter.plainText_render {p : Parameter} (hname : PlainText p.name)
    (htype : PlainText p.typeText) : PlainText p.render :=
  hname.followed.append htype

namespace Descriptor.Clean

variable {d : Descriptor}

/-- The parameters of an argument. -/
lemma plainText_argumentParameters {name : String} {t : BoundaryType} (hname : PlainText name)
    (ht : t.Clean) {ps : List Parameter} (hps : argumentParameters name t = .ok ps) :
    ∀ p ∈ ps, PlainText p.render := by
  obtain ⟨encoding, hencoding, hps⟩ := bind_eq_ok.mp hps
  rw [← pure_eq_ok.mp hps, List.forall_mem_cons]
  refine ⟨Parameter.plainText_render hname (ht.plainText_encodeArgument hencoding), ?_⟩
  split
  · exact List.forall_mem_singleton.mpr
      (Parameter.plainText_render hname.followed (by decide : PlainText lengthType))
  · exact fun p hp => absurd hp List.not_mem_nil

/-- The out-pointers of a result. -/
lemma plainText_resultParameters {fallible : Bool} {ret : Option BoundaryType}
    (hret : ∀ t ∈ ret, t.Clean) {ps : List Parameter}
    (hps : resultParameters fallible ret = .ok ps) : ∀ p ∈ ps, PlainText p.render := by
  rw [resultParameters.eq_def] at hps
  split at hps
  · cases pure_eq_ok.mp hps
    exact fun p hp => absurd hp List.not_mem_nil
  · next t =>
    split at hps
    · obtain ⟨encoding, hencoding, hps⟩ := bind_eq_ok.mp hps
      have hscalar := (hret t rfl).plainText_encodeResult hencoding
      rw [← pure_eq_ok.mp hps, List.forall_mem_cons]
      refine ⟨Parameter.plainText_render (by decide : PlainText resultName)
        hscalar.preceded, ?_⟩
      split
      · exact List.forall_mem_singleton.mpr (by decide)
      · exact fun p hp => absurd hp List.not_mem_nil
    · cases pure_eq_ok.mp hps
      exact fun p hp => absurd hp List.not_mem_nil

lemma plainText_parameters (hd : d.Clean) {params : List Parameter}
    (hparams : d.parameters = .ok params) : ∀ p ∈ params, PlainText p.render := by
  obtain ⟨args, hargs, hparams⟩ := bind_eq_ok.mp hparams
  obtain ⟨outs, houts, hparams⟩ := bind_eq_ok.mp hparams
  rw [← pure_eq_ok.mp hparams, List.forall_mem_append, List.forall_mem_append]
  refine ⟨⟨fun p hp => ?_, fun p hp => ?_⟩, plainText_resultParameters hd.result houts⟩
  · split at hp
    · rw [List.mem_singleton.mp hp]
      decide
    · exact absurd hp List.not_mem_nil
  · obtain ⟨ps, hps, hp⟩ := List.mem_flatten.mp hp
    obtain ⟨a, ha, hargument⟩ := Listwise.exists_of_mem_right (mapM_eq_ok.mp hargs) hps
    obtain ⟨hname, ht⟩ := hd.args a ha
    exact plainText_argumentParameters hname ht hargument p hp

lemma plainText_nativeReturn (hd : d.Clean) : ∀ text ∈ d.nativeReturn, PlainText text := by
  intro text htext
  rw [nativeReturn.eq_def] at htext
  split at htext
  · next name hret =>
    split at htext
    · cases htext
    · cases htext
      cases hd.result _ hret with
      | primitive hplain => exact hplain
  · cases htext

end Descriptor.Clean

lemma Assembly.isPlain_signature {d : Descriptor} (a : Assembly d) (hd : d.Clean) :
    a.signature.IsPlain where
  name := hd.symbol
  params := hd.plainText_parameters a.params_eq
  result := by
    intro text htext
    rw [Signature.result] at htext
    split at htext
    · rw [← Option.mem_some.mp htext]
      decide
    · exact hd.plainText_nativeReturn text htext

/-! ### Plain statements -/

/-- Ordinals are written in digits. -/
lemma plainText_toString (k : Nat) : PlainText (toString k) := by
  intro c hc
  rw [Nat.toString_eq_repr, Nat.toList_repr] at hc
  have hdigit := Nat.isDigit_of_mem_toDigits (by decide) (by decide) hc
  have hrange : 48 ≤ c.toNat ∧ c.toNat ≤ 57 := Char.isDigit_iff_toNat.mp hdigit
  have hprintable : 32 ≤ c.toNat ∧ c.toNat ≤ 126 := by omega
  exact hprintable

lemma isPlain_decodeEnum {name enumName : String} {variants : List String}
    (hname : PlainText name) (henum : PlainText enumName)
    (hvariants : ∀ v ∈ variants, PlainText v) :
    ∀ s ∈ decodeEnum name enumName variants, s.IsPlain := by
  have hpatterns : ∀ p ∈ (List.range variants.length).map (fun k => toString k) ++ ["_"],
      PlainText p := by
    rw [List.forall_mem_append, List.forall_mem_singleton]
    refine ⟨fun p hp => ?_, by decide⟩
    obtain ⟨k, -, rfl⟩ := List.mem_map.mp hp
    exact plainText_toString k
  have harms : ∀ s ∈ variants.map (fun v => Statement.arm (enumName ++ "::" ++ v)), s.IsPlain := by
    intro s hs
    obtain ⟨v, hv, rfl⟩ := List.mem_map.mp hs
    exact .arm (henum.followed.append (hvariants v hv))
  rw [decodeEnum, List.cons_append, List.forall_mem_cons, List.forall_mem_append]
  refine ⟨.openMatch hname hpatterns (by simpa using hname), harms, ?_⟩
  rw [List.forall_mem_cons, List.forall_mem_singleton]
  exact ⟨.arm (by decide), .closeScope⟩

/-- A handle that is taken back. -/
lemma isPlain_reclaim {h : Handle} {text : String} (hname : PlainText h.name)
    (htarget : h.target.Clean) (htext : h.target.native = .ok text) :
    (Statement.reclaim h.name text h.isMutable h.isConsumed).IsPlain :=
  .text rfl (plainText_reclaimText hname (htarget.plainText_native htext))

lemma isPlain_releases {l : List Handle} (hnames : ∀ h ∈ l, PlainText h.name) :
    ∀ s ∈ Handle.releases l, s.IsPlain := by
  intro s hs
  obtain ⟨h, hh, rfl⟩ := List.mem_map.mp hs
  exact .text rfl (plainText_releaseText (hnames h (List.mem_filter.mp hh).1))

/-- A clean argument on its way to the call. -/
lemma RebuildRow.isPlain {name : String} {t : BoundaryType} {r : Rebuilt}
    (h : RebuildRow name t r) (hname : PlainText name) (ht : t.Clean) :
    (∀ s ∈ r.steps ++ r.releases, s.IsPlain) ∧ PlainText r.expression := by
  cases h with
  | scalar s => exact ⟨fun s hs => absurd hs List.not_mem_nil, hname⟩
  | handle h text hhandles hhandle htext =>
      have htarget : h.target.Clean := ht.target (hhandles ▸ List.mem_singleton_self h)
      have hplain : PlainText h.name := hhandle ▸ hname
      refine ⟨List.forall_mem_cons.mpr ⟨isPlain_reclaim hplain htarget htext,
        isPlain_releases (List.forall_mem_singleton.mpr hplain)⟩, ?_⟩
      obtain ⟨borrow, hborrow, hpassed⟩ := t.exists_passed_eq name
      have hborrows : ∀ borrow ∈ ["", "&*", "&mut *"], PlainText borrow := by decide
      rw [hpassed]
      exact (hborrows borrow hborrow).append hname
  | run elem text htext =>
      cases ht with
      | sequence helem =>
          have htyped : PlainText ("&[" ++ text ++ "]") :=
            (helem.plainText_native htext).preceded.followed
          have hview : PlainText
              ("std::slice::from_raw_parts(" ++ name ++ ", " ++ companionName name ++ ")") :=
            (hname.preceded.followed.append hname.followed).followed
          exact ⟨List.forall_mem_singleton.mpr (.text rfl
            (plainText_bindingText hname hview (by simpa using htyped))), hname⟩
  | ordinal s variants =>
      cases ht with
      | enum hpath hvariants =>
          rw [List.append_nil]
          exact ⟨isPlain_decodeEnum hname (Name.plainText_of_segments hpath)
            fun v hv => Name.plainText_of_isWord (hvariants v hv), hname⟩

/-- The receiver on its way to the call. -/
lemma ReceiverRow.isPlain {d : Descriptor} {r : Rebuilt} (h : ReceiverRow d r)
    (howner : ∀ t ∈ d.owner, t.Clean) : ∀ s ∈ r.steps ++ r.releases, s.IsPlain := by
  have htarget : ∀ h ∈ d.receiverHandles, h.target.Clean := by
    intro h hh
    rw [Descriptor.receiverHandles.eq_def] at hh
    split at hh
    · exact absurd hh List.not_mem_nil
    · exact absurd hh List.not_mem_nil
    all_goals
      next hsome _ =>
      rw [List.mem_singleton.mp hh]
      exact howner _ hsome
  cases h with
  | none hhandles => exact fun s hs => absurd hs List.not_mem_nil
  | handle h text hhandles hhandle htext =>
      have hplain : PlainText h.name := by
        rw [hhandle]
        decide
      exact List.forall_mem_cons.mpr
        ⟨isPlain_reclaim hplain (htarget h (hhandles ▸ List.mem_singleton_self h)) htext,
          isPlain_releases (List.forall_mem_singleton.mpr hplain)⟩

namespace Descriptor.Clean

variable {d : Descriptor}

/-- The call with plain arguments. -/
lemma plainText_invocation (hd : d.Clean) {args : List String} (hargs : ∀ a ∈ args, PlainText a)
    {call : String} (hcall : d.invocation args = .ok call) : PlainText call := by
  have hplain : PlainText (d.funcName ++ "(" ++ ", ".intercalate args ++ ")") :=
    (hd.funcName.followed.append (.intercalate (by decide) hargs)).followed
  rw [invocation] at hcall
  split at hcall
  · rw [← pure_eq_ok.mp hcall]
    exact hplain.preceded
  · split at hcall
    · next name params howner =>
      obtain ⟨path, hpath, hcall⟩ := bind_eq_ok.mp hcall
      obtain ⟨texts, htexts, hpath⟩ := bind_eq_ok.mp hpath
      cases hd.owner _ howner with
      | struct hname hparams =>
          have htexts := BoundaryType.plainText_of_nativeAll
            (fun t ht text => (hparams t ht).plainText_native) htexts
          rw [← pure_eq_ok.mp hcall, ← pure_eq_ok.mp hpath]
          have happlied := BoundaryType.plainText_applied (Name.plainText_of_segments hname)
            (by decide : PlainText "::<") htexts
          exact happlied.followed.append hplain
    · rw [← pure_eq_ok.mp hcall]
      exact hplain

/-- The writes through the out-pointers. -/
lemma isPlain_storeResult {fallible : Bool} {ret : Option BoundaryType}
    (hret : ∀ t ∈ ret, t.Clean) {stores : List Statement}
    (hstores : storeResult fallible ret = .ok stores) : ∀ s ∈ stores, s.IsPlain := by
  have store : ∀ {value : String}, PlainText value →
      (Statement.storeOut resultName value).IsPlain := fun hvalue =>
    .text rfl (plainText_storeText (by decide) hvalue)
  have cast : ∀ {front : String}, PlainText front →
      (Statement.storeOut resultName (front ++ " as " ++ opaquePointer)).IsPlain := by
    intro front hfront
    exact store (hfront.followed.append plainText_opaquePointer)
  cases ret with
  | none =>
      cases pure_eq_ok.mp hstores
      exact fun s hs => absurd hs List.not_mem_nil
  | some t =>
      cases hret t rfl with
      | primitive hplain =>
          cases pure_eq_ok.mp hstores
          split
          · exact List.forall_mem_singleton.mpr (store (by decide))
          · exact fun s hs => absurd hs List.not_mem_nil
      | struct _ _ =>
          cases pure_eq_ok.mp hstores
          have hboxed : PlainText ("Box::into_raw(Box::new(" ++ valueName ++ ")) as ") := by decide
          exact List.forall_mem_singleton.mpr (store (hboxed.append plainText_opaquePointer))
      | sharedRef hinner =>
          obtain ⟨text, htext, hstores⟩ := bind_eq_ok.mp hstores
          cases pure_eq_ok.mp hstores
          exact List.forall_mem_singleton.mpr
            (cast (hinner.plainText_native htext).preceded)
      | mutRef hinner =>
          obtain ⟨text, htext, hstores⟩ := bind_eq_ok.mp hstores
          cases pure_eq_ok.mp hstores
          exact List.forall_mem_singleton.mpr
            (cast (hinner.plainText_native htext).preceded)
      | sequence _ =>
          have hboxed : PlainText (valueName ++
              ".into_iter().map(|elem| Box::into_raw(Box::new(elem)) as " ++ opaquePointer ++
              ").collect()") :=
            ((PlainText.append (by decide) (by decide)).append plainText_opaquePointer).followed
          have htyped : PlainText ("Box<[" ++ opaquePointer ++ "]>") :=
            plainText_opaquePointer.preceded.followed
          have hfront : PlainText ("Box::into_raw(" ++ valueName ++ ") as *mut ") := by decide
          cases pure_eq_ok.mp hstores
          rw [List.forall_mem_cons, List.forall_mem_cons, List.forall_mem_singleton]
          exact ⟨.text rfl (plainText_bindingText (by decide) hboxed (by simpa using htyped)),
            .text rfl (by decide), store (hfront.append plainText_opaquePointer)⟩
      | enum _ _ => cases hstores

end Descriptor.Clean

/-! ### Plain wrappers -/

namespace Assembly

variable {d : Descriptor} (a : Assembly d) (hd : d.Clean)

include hd

lemma isPlain_arg {r : Rebuilt} (hr : r ∈ a.args) :
    (∀ s ∈ r.steps ++ r.releases, s.IsPlain) ∧ PlainText r.expression := by
  obtain ⟨arg, harg, hrow⟩ := a.exists_rebuildRow hr
  exact hrow.isPlain (hd.args arg harg).1 (hd.args arg harg).2

lemma isPlain_steps_releases : ∀ s ∈ a.steps ++ a.releases, s.IsPlain := by
  have hreceiver := (receiverRow a.receiver_eq).isPlain hd.owner
  rw [List.forall_mem_append] at hreceiver
  rw [steps, releases, List.forall_mem_append, List.forall_mem_append, List.forall_mem_append]
  refine ⟨⟨hreceiver.1, fun s hs => ?_⟩, hreceiver.2, fun s hs => ?_⟩
  · obtain ⟨r, hr, hs⟩ := List.mem_flatMap.mp hs
    exact (a.isPlain_arg hd hr).1 s (List.mem_append_left _ hs)
  · obtain ⟨r, hr, hs⟩ := List.mem_flatMap.mp hs
    exact (a.isPlain_arg hd hr).1 s (List.mem_append_right _ hs)

lemma plainText_call : PlainText a.call := by
  refine hd.plainText_invocation (fun text htext => ?_) a.call_eq
  obtain ⟨r, hr, rfl⟩ := List.mem_map.mp htext
  exact (a.isPlain_arg hd hr).2

/-- The call, and on the way out behind one that failed. -/
lemma isPlain_called : ∀ s ∈ a.called, s.IsPlain := by
  have hcall := a.plainText_call hd
  have hreleases := (List.forall_mem_append.mp (a.isPlain_steps_releases hd)).2
  have hbinding : ∀ name ∈ a.binding, PlainText name := by
    rw [binding]
    split
    · intro name hname
      rw [← Option.mem_some.mp hname]
      decide
    · exact fun _ h => absurd h (Option.not_mem_none _)
  rw [called_eq, callStatement, arms]
  by_cases hfallible : d.fallible = true
  · rw [if_pos hfallible, if_pos hfallible, List.forall_mem_cons, List.forall_mem_cons,
      List.forall_mem_cons, List.forall_mem_singleton]
    refine ⟨.openMatch hcall ?_ hbinding, .arm ?_, .armBlock ?_, .closeScope⟩
    · rw [List.forall_mem_cons, List.forall_mem_singleton]
      exact ⟨by split <;> decide, by decide⟩
    · split <;> decide
    · exact List.forall_mem_append.mpr
        ⟨hreleases, List.forall_mem_singleton.mpr (.text rfl (by decide))⟩
  · rw [if_neg hfallible, if_neg hfallible, List.forall_mem_singleton]
    exact .text rfl (plainText_callText hcall hbinding)

lemma isPlain_plan : ∀ s ∈ a.wrapper.plan, s.IsPlain := by
  obtain ⟨hsteps, hreleases⟩ := List.forall_mem_append.mp (a.isPlain_steps_releases hd)
  have hlast : ∀ s ∈ a.last, s.IsPlain := by
    rw [last]
    split
    · exact List.forall_mem_singleton.mpr (.text rfl (by decide))
    · exact fun s hs => absurd hs List.not_mem_nil
  have hstores := Descriptor.Clean.isPlain_storeResult hd.result a.stores_eq
  have hbody : ∀ s ∈ a.wrapper.body, s.IsPlain := by
    simp only [wrapper, List.forall_mem_append]
    exact ⟨⟨⟨⟨hsteps, a.isPlain_called hd⟩, hstores⟩, hreleases⟩, hlast⟩
  rw [Wrapper.plan, List.cons_append, List.forall_mem_cons, List.forall_mem_append,
    List.forall_mem_singleton]
  exact ⟨.openFunction (a.isPlain_signature hd), hbody, .closeScope⟩

/-- The wrapper is written as plain lines. -/
lemma exists_plain_block (hblock : IsBlock a.wrapper.body) :
    ∃ block, WrittenAs a.wrapper block ∧ ∀ line ∈ block, PlainText line := by
  obtain ⟨lines, hlines⟩ := hblock
  have hwritten := writtenAs_of_appends hlines
  obtain ⟨e, hrun, hadded, -⟩ := hwritten.fresh
  have hempty : Emitter.IsPlain {} :=
    ⟨fun line hline => absurd hline List.not_mem_nil, fun f hf => absurd hf List.not_mem_nil⟩
  have hplain : Emitter.IsPlain (after a.wrapper.emit {}) :=
    Statement.keeps_emitAll (a.isPlain_plan hd) {} hempty
  rw [after, hrun] at hplain
  refine ⟨_, hwritten, fun line hline => hplain.lines line ?_⟩
  rw [hadded]
  exact List.mem_append_left _ hline

end Assembly

/-! ### What is spliced -/

/-- The names in a wrapper: its symbol, its parameters, and the given names. -/
def splicedNames (d : Descriptor) (w : Wrapper) : List String :=
  w.signature.name :: (w.signature.params.map Parameter.name ++ d.givenNames)

/-- What the names of a wrapper are. -/
structure SplicesNames (d : Descriptor) (w : Wrapper) : Prop where
  /-- A line feed behind a name is all that is let through. -/
  given : ∀ s ∈ d.givenNames, Name.WordUpToFeed s
  /-- Different names are the same identifier where the line feed is the difference. -/
  identifiers : ∀ s ∈ d.givenNames, ∀ t ∈ d.givenNames,
    Name.identifier s = Name.identifier t ↔ s = t ∨ s = t ++ "\n" ∨ t = s ++ "\n"
  /-- All the names are words exactly if there is no line feed in the given ones. -/
  words : (∀ s ∈ splicedNames d w, Name.isWord s.toList = true) ↔
    ∀ s ∈ d.givenNames, '\n' ∉ s.toList
  /-- Then different names are different identifiers, -/
  different : (∀ s ∈ d.givenNames, '\n' ∉ s.toList) →
    ∀ s ∈ splicedNames d w, ∀ t ∈ splicedNames d w, s ≠ t → Name.identifier s ≠ Name.identifier t
  /-- and the plan is written as lines without line breaks. -/
  lines : (∀ s ∈ d.givenNames, '\n' ∉ s.toList) →
    ∃ block, WrittenAs w block ∧ ∀ line ∈ block, PlainText line

/-- **Names.** Whatever descriptor has a wrapper, the names that it is given with are words, up to a
single line feed behind each. If there is none, the symbol, the parameters and the given names are
words, different ones are different identifiers, and the wrapper is written as lines of printable
characters. -/
theorem splicesNames_of_compile (d : Descriptor) (w : Wrapper) (h : d.compile = .ok w)
    (hscalars : ∀ s ∈ d.scalars, s ∈ BoundaryType.primitiveNames) : SplicesNames d w := by
  have hd := Descriptor.acceptable_of_compile h
  have hblock := isBlock_of_compile h
  obtain ⟨a, rfl⟩ := Descriptor.exists_assembly h
  have hgiven : (∀ s ∈ d.givenNames, '\n' ∉ s.toList) →
      ∀ s ∈ d.givenNames, Name.isWord s.toList = true :=
    fun hfeeds s hs => (hd.wordUpToFeed s hs).isWord (hfeeds s hs)
  have hall : (∀ s ∈ d.givenNames, '\n' ∉ s.toList) →
      ∀ s ∈ splicedNames d a.wrapper, Name.isWord s.toList = true := by
    intro hfeeds
    have hwords := hgiven hfeeds
    refine List.forall_mem_cons.mpr ⟨Descriptor.isWord_symbol hwords, ?_⟩
    exact List.forall_mem_append.mpr ⟨a.isWord_parameters hwords, hwords⟩
  constructor
  case given => exact hd.wordUpToFeed
  case identifiers =>
    exact fun s hs t ht => (hd.wordUpToFeed s hs).identifier_eq_iff (hd.wordUpToFeed t ht)
  case words =>
    refine ⟨fun hwords s hs => ?_, hall⟩
    exact (Name.plainText_of_isWord
      (hwords s (List.mem_cons_of_mem _ (List.mem_append_right _ hs)))).newline_notMem
  case different =>
    intro hfeeds s hs t ht hne
    rw [Name.identifier_of_isWord (hall hfeeds s hs), Name.identifier_of_isWord (hall hfeeds t ht)]
    exact hne
  case lines => exact fun hfeeds => a.exists_plain_block (hd.clean (hgiven hfeeds) hscalars) hblock

theorem splicesNames_exchange :
    ∃ w, Descriptor.exchange.compile = .ok w ∧
      (∀ s ∈ Descriptor.exchange.scalars, s ∈ BoundaryType.primitiveNames) ∧
      SplicesNames Descriptor.exchange w :=
  ⟨_, rfl, by decide, splicesNames_of_compile Descriptor.exchange _ rfl (by decide)⟩

/-- Two arguments with one identifier, and a symbol that breaks its line. -/
theorem feed_spliced_into_lines : ∃ (d : Descriptor) (w : Wrapper) (block : List String),
    d.compile = .ok w ∧
    (∀ s ∈ d.scalars, s ∈ BoundaryType.primitiveNames) ∧
    d.funcName = "sum\n" ∧ d.args.map Prod.fst = ["a", "a\n"] ∧
    Name.isWord w.signature.name.toList = false ∧
    Name.identifier "a" = Name.identifier "a\n" ∧
    WrittenAs w block ∧
      block[1]? = some "pub extern \"C\" fn sum\n(a: u8, a\n: u8) \x7b" := by
  have hblock : Appends (Statement.emitAll [.call "sum\n(a, a\n)" none]) ["sum\n(a, a\n);"] :=
    Statement.appends_emitAll_of_text (.cons rfl .nil)
  refine ⟨{ funcName := "sum\n", args := [("a", .primitive "u8"), ("a\n", .primitive "u8")] }, _, _,
    rfl, by decide, rfl, rfl, rfl, rfl, writtenAs_of_appends hblock, rfl⟩

end AbiBridge
