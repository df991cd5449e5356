/-
This file models how `extractMeta` reads the metadata of a page, and proves when its texts are
valid UTF-8. Texts are cut at a number of bytes, which may be inside a rune. What the regular
expressions match and what `html.UnescapeString` gives are parameters.
-/

import Ircthing.Golang.Utf8
import Ircthing.Library.Dict

namespace Ircthing.Api.Preview

open Library List

def previewMaxTitle : Nat := 300

def previewMaxDesc : Nat := 500

def maxImageURL : Nat := 2048

def maxMetaTags : Nat := 256

def maxMetaTagBytes : Nat := 8 * 1024

def maxMetaAttrs : Nat := 32

def maxTitleElBytes : Nat := 8 * 1024

def wantedMeta : List Bytes :=
  [lit "og:title", lit "twitter:title", lit "og:description", lit "twitter:description",
    lit "description", lit "og:site_name", lit "og:image", lit "og:image:url",
    lit "twitter:image"]

/-- The groups of `reAttr` that are read: the name, and the value in quotes, in apostrophes or
bare. -/
structure Attribute where
  name : Bytes
  quoted : Bytes
  apostrophes : Bytes
  bare : Bytes

/-- The matches of `reHead`, `reMeta`, `reAttr` and `reTitleEl`, and the functions of other
packages. -/
structure Packages where
  headEnd : Bytes → Option Nat
  metaTags : Bytes → List Bytes
  attributes : Bytes → List Attribute
  titleText : Bytes → Option Bytes
  unescapeString : Bytes → Bytes
  lowerRune : Nat → Nat
  resolveURL : Bytes → Bytes → Bytes

/-- The part of the response that `extractMeta` fills. -/
structure PreviewData where
  title : Bytes := []
  description : Bytes := []
  image : Bytes := []
  siteName : Bytes := []
deriving DecidableEq

def firstNonEmpty : List Bytes → Bytes
  | [] => []
  | value :: rest => if trimSpace value ≠ [] then trimSpace value else firstNonEmpty rest

variable (text : Bytes)

def collapse : Bytes := join (lit " ") (fields text)

def clip (max : Nat) : Bytes :=
  let text := collapse text
  if text.length ≤ max then text else trimSpace (text.take max) ++ lit "…"

variable (env : Packages)

def readAttribute (pair : Bytes × Bytes) (attr : Attribute) : Bytes × Bytes :=
  let name := toLower env.lowerRune attr.name
  let value := firstNonEmpty [attr.quoted, attr.apostrophes, attr.bare]
  if name = lit "property" ∨ name = lit "name" then (toLower env.lowerRune value, pair.2)
  else if name = lit "content" then (pair.1, value)
  else pair

def readTag (metadata : Dict Bytes Bytes) (tag : Bytes) : Dict Bytes Bytes :=
  if tag.length > maxMetaTagBytes then metadata
  else
    let (key, content) :=
      ((env.attributes tag).take maxMetaAttrs).foldl (readAttribute env) ([], [])
    if content = [] ∨ wantedMeta.contains key = false then metadata
    else if (metadata.lookup key).isSome then metadata
    else metadata.insert key (env.unescapeString content)

variable (doc : Bytes)

def parseHeadMeta : Dict Bytes Bytes :=
  ((env.metaTags doc).take maxMetaTags).foldl (readTag env) ∅

def titleElement : Bytes :=
  match env.titleText doc with
  | none => []
  | some text =>
    env.unescapeString (if text.length > maxTitleElBytes then text.take maxTitleElBytes else text)

def headOf : Bytes := (env.headEnd doc).elim doc doc.take

def entry (key : String) : Bytes :=
  ((parseHeadMeta env doc).lookup (lit key)).getD []

def titleOf : Bytes :=
  firstNonEmpty [entry env doc "og:title", entry env doc "twitter:title", titleElement env doc]

def descriptionOf : Bytes :=
  firstNonEmpty [entry env doc "og:description", entry env doc "twitter:description",
    entry env doc "description"]

def extractMeta (doc pageURL : Bytes) (pv : PreviewData) : PreviewData :=
  let doc := headOf env doc
  let img := firstNonEmpty [entry env doc "og:image", entry env doc "og:image:url",
    entry env doc "twitter:image"]
  { title := clip (titleOf env doc) previewMaxTitle
    description := clip (descriptionOf env doc) previewMaxDesc
    siteName := clip (entry env doc "og:site_name") previewMaxTitle
    image := if img ≠ [] ∧ (env.resolveURL pageURL img).length ≤ maxImageURL then
      env.resolveURL pageURL img else pv.image }

/-! ### What keeps a text valid -/

/-- What is taken from a valid text is valid. -/
structure Packages.Sound : Prop where
  head : ∀ doc start, validString doc = true → env.headEnd doc = some start →
    validString (doc.take start) = true
  tags : ∀ doc, validString doc = true → ∀ tag ∈ env.metaTags doc, validString tag = true
  values : ∀ tag, validString tag = true → ∀ attr ∈ env.attributes tag,
    ∀ value ∈ [attr.quoted, attr.apostrophes, attr.bare], validString value = true
  title : ∀ doc text, validString doc = true → env.titleText doc = some text →
    validString text = true
  unescape : ∀ text, validString text = true → validString (env.unescapeString text) = true
  /-- No entity has a byte that is no ASCII. -/
  unescapeEnd : ∀ text tail, (∀ byte ∈ tail, 0x80 ≤ byte) →
    env.unescapeString (text ++ tail) = env.unescapeString text ++ tail

/-- How many bytes of a rune that it splits a cut keeps. -/
def splitBytes (bound : Nat) : Nat :=
  (text.take bound).length - ((wholeRunes bound (runes text)).flatMap (·.2)).length

/-- The title in the metadata of a page. -/
def metaTitle : Bytes := firstNonEmpty [entry env doc "og:title", entry env doc "twitter:title"]

/-- The text of a title element as it is read, with its white space collapsed. -/
def elementTitle (element : Bytes) : Bytes :=
  collapse (env.unescapeString (element.take maxTitleElBytes))

/-- No cut splits a rune of the title; or else the cut of the title element does, and the second cut
takes away what is left of that rune. -/
def TitleFits : Prop :=
  if metaTitle env doc ≠ [] then CutsBetween (collapse (metaTitle env doc)) previewMaxTitle
  else ∀ element ∈ env.titleText doc, CutsBetween (elementTitle env element) previewMaxTitle ∧
    (CutsBetween element maxTitleElBytes ∨
      previewMaxTitle + splitBytes element maxTitleElBytes ≤ (elementTitle env element).length)

variable {env} {text doc : Bytes}

theorem validString_firstNonEmpty {values : List Bytes}
    (valid : ∀ value ∈ values, validString value = true) :
    validString (firstNonEmpty values) = true := by
  induction values with
  | nil => rfl
  | cons value rest ih =>
    rw [firstNonEmpty]
    split
    · rw [validString_trimSpace_eq]
      exact valid value mem_cons_self
    · exact ih fun other member => valid other (.tail _ member)

theorem validString_collapse (valid : validString text = true) :
    validString (collapse text) = true :=
  validString_join rfl (validString_fields valid)

/-- A clipped text is valid if and only if what is kept of the collapsed text is. -/
theorem validString_clip (text : Bytes) (max : Nat) :
    validString (clip text max) = validString ((collapse text).take max) := by
  rw [clip]
  split
  next short => rw [take_of_length_le short]
  · have ellipsis : validString (lit "…") = true := by decide +kernel
    rw [validString_append_start (by decide +kernel), validString_trimSpace_eq, ellipsis,
      Bool.and_true]

theorem validString_clip_iff {max : Nat} (valid : validString text = true) :
    validString (clip text max) = true ↔ CutsBetween (collapse text) max := by
  rw [validString_clip, validString_take_iff (validString_collapse valid)]

/-! ### White space around a text -/

theorem fieldsLoop_spaces {spaces : List (Nat × Bytes)}
    (each : ∀ rune ∈ spaces, isSpace rune.1 = true) (field : Bytes)
    (visited : List (Nat × Bytes)) :
    fieldsLoop field (visited ++ spaces) = fieldsLoop field visited := by
  induction visited generalizing field with
  | nil =>
    rw [nil_append]
    induction spaces generalizing field with
    | nil => rfl
    | cons rune spaces ih =>
      have later := ih (fun other member => each other (.tail _ member)) []
      rw [fieldsLoop.eq_2, if_pos (each rune mem_cons_self), later]
      rfl
  | cons rune visited ih =>
    rw [cons_append, fieldsLoop, fieldsLoop, ih, ih]

theorem fields_trimSpace (text : Bytes) : fields (trimSpace text) = fields text := by
  have start (visited : List (Nat × Bytes)) :
      fieldsLoop [] (visited.dropWhile fun rune => isSpace rune.1) = fieldsLoop [] visited := by
    induction visited with
    | nil => rfl
    | cons rune visited ih =>
      rw [dropWhile_cons]
      split
      next space => rw [ih, fieldsLoop, if_pos space, if_pos rfl]
      · rfl
  let space (rune : Nat × Bytes) : Bool := isSpace rune.1
  let later := (runes text).dropWhile space
  have split : later =
      (later.reverse.dropWhile space).reverse ++ (later.reverse.takeWhile space).reverse := by
    rw [← reverse_append, takeWhile_append_dropWhile, reverse_reverse]
  rw [fields, runes_trimSpace, fields, ← start (runes text)]
  have each (rune : Nat × Bytes) (member : rune ∈ (later.reverse.takeWhile space).reverse) :
      isSpace rune.1 = true := mem_takeWhile_imp (p := space) (mem_reverse.mp member)
  exact (fieldsLoop_spaces each [] _).symm.trans (congrArg _ split.symm)

theorem collapse_firstNonEmpty (text : Bytes) :
    collapse (firstNonEmpty [text]) = collapse text := by
  rw [firstNonEmpty, collapse, collapse]
  split
  · rw [fields_trimSpace]
  next blank =>
    rw [← fields_trimSpace text, not_not.mp blank]
    rfl

/-! ### A rune that is cut off -/

/-- A text without spaces at the end of another is the end of its last field. -/
theorem fieldsLoop_solid {tail : List (Nat × Bytes)}
    (solid : ∀ rune ∈ tail, isSpace rune.1 = false ∧ rune.2 ≠ []) (some : tail ≠ []) (field : Bytes)
    (visited : List (Nat × Bytes)) (valid : validString field = true)
    (each : ∀ rune ∈ visited, IsRune rune) :
    ∃ parts last, fieldsLoop field (visited ++ tail) = parts ++ [last ++ tail.flatMap (·.2)] ∧
      ∀ part ∈ parts ++ [last], validString part = true := by
  induction visited generalizing field with
  | nil =>
    have ending (tail : List (Nat × Bytes)) (field : Bytes)
        (solid : ∀ rune ∈ tail, isSpace rune.1 = false ∧ rune.2 ≠ []) (filled : field ≠ []) :
        fieldsLoop field tail = [field ++ tail.flatMap (·.2)] := by
      induction tail generalizing field with
      | nil => rw [fieldsLoop, if_neg filled, flatMap_nil, append_nil]
      | cons rune tail ih =>
        rw [fieldsLoop, (solid rune mem_cons_self).1, if_neg Bool.false_ne_true, ih _
          (fun other member => solid other (.tail _ member))
          (append_ne_nil_of_left_ne_nil filled _), flatMap_cons, append_assoc]
    cases tail with
    | nil => exact absurd rfl some
    | cons rune tail =>
      obtain ⟨noSpace, filled⟩ := solid rune mem_cons_self
      refine ⟨[], field, ?_, by simpa using valid⟩
      rw [nil_append, fieldsLoop, noSpace, if_neg Bool.false_ne_true, ending _ _
        (fun other member => solid other (.tail _ member))
        (append_ne_nil_of_right_ne_nil _ filled), flatMap_cons, append_assoc, nil_append]
  | cons rune visited ih =>
    have later (other : Nat × Bytes) (member : other ∈ visited) := each other (.tail _ member)
    rw [cons_append, fieldsLoop]
    split_ifs
    · exact ih [] rfl later
    · obtain ⟨parts, last, split, valid'⟩ := ih [] rfl later
      refine ⟨field :: parts, last, by rw [split, cons_append], ?_⟩
      rw [cons_append, forall_mem_cons]
      exact ⟨valid, valid'⟩
    · refine ih _ (validString_append valid ?_) later
      rw [← flatMap_singleton (·.2) rune]
      exact validString_flatMap (by simpa using each rune mem_cons_self)

theorem join_concat (separator : Bytes) (parts : List Bytes) (last tail : Bytes) :
    join separator (parts ++ [last ++ tail]) = join separator (parts ++ [last]) ++ tail := by
  induction parts with
  | nil => rfl
  | cons part parts ih =>
    have apart (rest : Bytes) : join separator (part :: (parts ++ [rest])) =
        part ++ separator ++ join separator (parts ++ [rest]) := by
      rw [join]
      simp
    rw [cons_append, cons_append, apart, apart, ih, append_assoc _ _ tail]

theorem collapse_append {bytes : Bytes} (valid : validString text = true)
    (incomplete : Incomplete bytes) :
    ∃ front, collapse (text ++ bytes) = front ++ bytes ∧ validString front = true := by
  by_cases none : bytes = []
  · exact ⟨collapse text, by rw [none, append_nil, append_nil], validString_collapse valid⟩
  have solid (rune : Nat × Bytes) (member : rune ∈ runes bytes) :
      isSpace rune.1 = false ∧ rune.2 ≠ [] := by
    rw [incomplete.runes_eq] at member
    obtain ⟨byte, -, rfl⟩ := mem_map.mp member
    exact ⟨(by decide : isSpace runeError = false), cons_ne_nil _ _⟩
  have some : runes bytes ≠ [] := by
    rw [incomplete.runes_eq]
    simpa using none
  obtain ⟨parts, last, split, each⟩ :=
    fieldsLoop_solid solid some [] (runes text) rfl (validString_iff.mp valid)
  rw [flatMap_runes] at split
  refine ⟨join (lit " ") (parts ++ [last]), ?_, validString_join rfl each⟩
  rw [collapse, fields, runes_append_start incomplete.start, split, join_concat]

theorem validString_take_append {front bytes : Bytes} {max : Nat}
    (valid : validString front = true) (incomplete : Incomplete bytes) :
    validString ((front ++ bytes).take max) = true ↔ CutsBetween (front ++ bytes) max ∧
      (bytes = [] ∨ max + bytes.length ≤ (front ++ bytes).length) := by
  rw [length_append]
  by_cases within : max ≤ front.length
  · have alike : CutsBetween (front ++ bytes) max ↔ CutsBetween front max := by
      unfold CutsBetween
      rcases within.lt_or_eq with below | rfl
      · rw [getElem?_append_left below]
      · rw [getElem?_append_right le_rfl, Nat.sub_self, ← head?_eq_getElem?,
          getElem?_eq_none le_rfl]
        exact iff_of_true incomplete.start nofun
    rw [take_append_of_le_length within, validString_take_iff valid, alike]
    exact (and_iff_left (.inr (by omega))).symm
  · have beyond : front.length ≤ max := by omega
    rw [take_append, take_of_length_le beyond, validString_append_iff valid,
      (incomplete.take _).valid_iff, take_eq_nil_iff]
    constructor
    · rintro (none | empty)
      · omega
      · rw [empty, append_nil]
        refine ⟨fun byte found => ?_, .inl rfl⟩
        rw [getElem?_eq_none beyond] at found
        cases found
    · rintro ⟨-, empty | long⟩
      · exact .inr empty
      · omega

section

variable (sound : env.Sound) (valid : validString doc = true)
include sound valid

theorem validString_content :
    validString (((env.attributes doc).take maxMetaAttrs).foldl (readAttribute env) ([], [])).2 =
      true := by
  refine foldlRecOn (motive := fun pair : Bytes × Bytes => validString pair.2 = true) _ _ rfl
    fun pair valid' attr member => ?_
  have value := validString_firstNonEmpty (sound.values doc valid attr (mem_of_mem_take member))
  unfold readAttribute
  dsimp only
  split
  · exact valid'
  · split
    · exact value
    · exact valid'

theorem validString_headOf : validString (headOf env doc) = true := by
  unfold headOf
  cases found : env.headEnd doc with
  | none => exact valid
  | some start => exact sound.head doc start valid found

theorem validString_entry (key : String) : validString (entry env doc key) = true := by
  have values : ∀ key value, (parseHeadMeta env doc).lookup key = some value →
      validString value = true := by
    refine foldlRecOn (motive := fun metadata : Dict Bytes Bytes => ∀ key value,
      metadata.lookup key = some value → validString value = true) _ _ (fun _ _ found => by
        cases found) fun metadata each tag member key value found => ?_
    have content := validString_content sound (sound.tags doc valid tag (mem_of_mem_take member))
    unfold readTag at found
    split at found
    · exact each key value found
    dsimp only at found
    split at found
    · exact each key value found
    split at found
    · exact each key value found
    rw [Dict.lookup_insert_eq] at found
    split at found
    · cases found
      exact sound.unescape _ content
    · exact each key value found
  unfold entry
  cases found : (parseHeadMeta env doc).lookup (lit key) with
  | none => rfl
  | some value => exact values _ value found

theorem validString_elementTitle (element : Bytes) (found : env.titleText doc = some element)
    (max : Nat) :
    validString ((elementTitle env element).take max) = true ↔
      CutsBetween (elementTitle env element) max ∧ (CutsBetween element maxTitleElBytes ∨
        max + splitBytes element maxTitleElBytes ≤ (elementTitle env element).length) := by
  have whole := sound.title doc element valid found
  obtain ⟨bytes, incomplete, cut⟩ := take_flatMap (validString_iff.mp whole) maxTitleElBytes
  have kept : validString ((wholeRunes maxTitleElBytes (runes element)).flatMap (·.2)) = true :=
    validString_flatMap fun rune member =>
      validString_iff.mp whole rune ((prefix_wholeRunes _ _).subset member)
  rw [flatMap_runes] at cut
  have split : splitBytes element maxTitleElBytes = bytes.length := by
    rw [splitBytes, cut, length_append, Nat.add_sub_cancel_left]
  have nothing : CutsBetween element maxTitleElBytes ↔ bytes = [] := by
    rw [← validString_take_iff whole, cut, validString_append_iff kept, incomplete.valid_iff]
  obtain ⟨front, collapsed, frontValid⟩ := collapse_append (sound.unescape _ kept) incomplete
  rw [elementTitle, cut, sound.unescapeEnd _ _ incomplete.beyond, collapsed, split, nothing,
    validString_take_append frontValid incomplete]

theorem title_valid_iff :
    validString (clip (titleOf env doc) previewMaxTitle) = true ↔ TitleFits env doc := by
  have entries := validString_entry sound valid
  have named : validString (metaTitle env doc) = true := validString_firstNonEmpty (by
    simp only [forall_mem_cons, not_mem_nil, false_implies, implies_true, and_true]
    exact ⟨entries _, entries _⟩)
  have chosen : titleOf env doc = if metaTitle env doc ≠ [] then metaTitle env doc
      else firstNonEmpty [titleElement env doc] := by
    unfold titleOf metaTitle
    simp only [firstNonEmpty]
    split_ifs <;> simp_all
  rw [chosen, TitleFits]
  split
  · rw [validString_clip_iff named]
  · rw [validString_clip, collapse_firstNonEmpty]
    cases found : env.titleText doc with
    | none =>
      have none : titleElement env doc = [] := by rw [titleElement, found]
      exact iff_of_true (by rw [none]; rfl) nofun
    | some element =>
      have read : collapse (titleElement env doc) = elementTitle env element := by
        rw [titleElement, found, elementTitle]
        dsimp only
        split
        · rfl
        next short => rw [take_of_length_le (not_lt.mp short)]
      rw [read, validString_elementTitle sound valid element found]
      simp

end

/-- Each text of a preview is valid if and only if no cut leaves a part of a rune. -/
theorem preview_text_valid (env : Packages) (sound : env.Sound) (doc : Bytes)
    (valid : validString doc = true) (pageURL : Bytes) (pv : PreviewData) :
    (validString (extractMeta env doc pageURL pv).title = true ↔ TitleFits env (headOf env doc)) ∧
    (validString (extractMeta env doc pageURL pv).description = true ↔
      CutsBetween (collapse (descriptionOf env (headOf env doc))) previewMaxDesc) ∧
    (validString (extractMeta env doc pageURL pv).siteName = true ↔
      CutsBetween (collapse (entry env (headOf env doc) "og:site_name")) previewMaxTitle) := by
  have head := validString_headOf sound valid
  have entries := validString_entry sound head
  have description : validString (descriptionOf env (headOf env doc)) = true := by
    refine validString_firstNonEmpty ?_
    simp only [forall_mem_cons, not_mem_nil, false_implies, implies_true, and_true]
    exact ⟨entries _, entries _, entries _⟩
  simp only [extractMeta]
  exact ⟨title_valid_iff sound head, validString_clip_iff description,
    validString_clip_iff (entries _)⟩

def titlePage (title : Bytes) : Packages where
  headEnd _ := none
  metaTags _ := []
  attributes _ := []
  titleText doc := if doc = lit "<title>" ++ title ++ lit "</title>" then some title else none
  unescapeString text := text
  lowerRune rune := rune
  resolveURL _ ref := ref

theorem sound_titlePage {title : Bytes} (valid : validString title = true) :
    (titlePage title).Sound where
  head := nofun
  tags := nofun
  values := nofun
  title _ text _ found := by
    obtain ⟨-, same⟩ := Option.ite_none_right_eq_some.mp found
    exact Option.some.inj same ▸ valid
  unescape _ valid := valid
  unescapeEnd _ _ _ := rfl

theorem preview_text_valid_short :
    validString (extractMeta (titlePage (lit "naïve")) (lit "<title>naïve</title>") [] {}).title =
      true :=
  (preview_text_valid _ (sound_titlePage (by decide +kernel)) _ (by decide +kernel) [] {}).1.mpr
    (fun element found => by
      obtain rfl : lit "naïve" = element := Option.some.inj found
      exact ⟨by decide +kernel, .inl (by decide +kernel)⟩)

/-- One `a` and 150 two-byte letters: the last of them is cut in the middle. -/
def longTitle : Bytes := 0x61 :: (replicate 150 (lit "é")).flatten

theorem long_title_invalid :
    validString (lit "<title>" ++ longTitle ++ lit "</title>") = true ∧
      (titlePage longTitle).Sound ∧
      validString (extractMeta (titlePage longTitle)
        (lit "<title>" ++ longTitle ++ lit "</title>") [] {}).title = false :=
  ⟨by decide +kernel, sound_titlePage (by decide +kernel), by decide +kernel⟩

end Ircthing.Api.Preview
