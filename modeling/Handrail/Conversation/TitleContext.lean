import Handrail.Js.Value
import Handrail.Js.Whitespace
import Handrail.Catalog.Descriptor
import Handrail.Conversation.State

/-!
# `title-generation.ts`: what a title hook sees and what becomes of its answer

The hook sees capped texts of the user's messages, and every title is one that the catalog takes as it is.
-/

namespace Handrail.Conversation
open Js Handrail.Catalog

/-- `CONVERSATION_TITLE_GENERATION_LIMITS` -/
structure TitleGenerationLimits where
  userTextItems : Nat
  userTextLength : Nat
  userTextTotalLength : Nat
  idempotencyEntries : Nat

def titleGenerationLimits : TitleGenerationLimits where
  userTextItems := 8
  userTextLength := 1024
  userTextTotalLength := 4096
  idempotencyEntries := 128

def defaultConversationTitle : JsString := js "New conversation"

inductive TitleGenerationErrorCode where
  | invalidInput
  | idempotencyConflict
  | capacityExceeded

/-! ### Texts -/

/-- `[\p\x7bCc\x7d\p\x7bZl\x7d\p\x7bZp\x7d]` -/
def isControlOrSeparator (c : UInt16) : Bool := c < 0x20 || (0x7f ≤ c && c ≤ 0x9f) || c == 0x2028 || c == 0x2029

/-- `UNSAFE_TITLE_CHARACTER.test(value)`; `\p\x7bCs\x7d` under the flag `u` is a surrogate that stands alone. -/
def hasUnsafeTitleCharacter (value : JsString) : Bool := !paired value.units || value.units.any isControlOrSeparator

def replaceUnit (c : UInt16) : UInt16 :=
  if isControlOrSeparator c || isLeadingSurrogate c || isTrailingSurrogate c then 32 else c

/-- `value.replace(SANITIZED_TEXT_CHARACTER, " ")` -/
def replaceCharacters : List UInt16 → List UInt16
  | [] => []
  | [c] => [replaceUnit c]
  | c :: d :: rest =>
    if isLeadingSurrogate c && isTrailingSurrogate d then c :: d :: replaceCharacters rest
    else replaceUnit c :: replaceCharacters (d :: rest)

def normalizeWhitespace (value : JsString) : JsString := trim ⟨collapse false value.units⟩

def sanitizeUserText (value : JsString) : JsString := normalizeWhitespace ⟨replaceCharacters value.units⟩

/-- `.join(" ")` -/
def joinTexts (texts : List JsString) : JsString := ⟨[32].intercalate (texts.map JsString.units)⟩

def capUserText (text : JsString) (remaining : Nat) : JsString :=
  trimEnd (truncateUtf16 text (min remaining titleGenerationLimits.userTextLength))

/-! ### The context -/

def collectUserTexts : List JsString → Nat → List MessageRecord → List JsString
  | userTexts, _, [] => userTexts
  | userTexts, remaining, message :: rest =>
    if message.role ≠ some .user ∨ titleGenerationLimits.userTextItems ≤ userTexts.length ∨ remaining = 0 then
      collectUserTexts userTexts remaining rest
    else
      let text := sanitizeUserText (joinTexts message.content)
      if text.length = 0 then collectUserTexts userTexts remaining rest
      else
        let capped := capUserText text remaining
        if capped.length = 0 then collectUserTexts userTexts remaining rest
        else collectUserTexts (userTexts ++ [capped]) (remaining - capped.length) rest

structure TitleContext where
  conversationId : ConversationId
  userTexts : List JsString
deriving DecidableEq

/-- `createConversationTitleGenerationContext` -/
def createTitleContext (state : ConversationState) : Except TitleGenerationErrorCode TitleContext :=
  match parseCatalogText catalogLimits.identifierLength catalogIdentifierPattern .rename
      (state.conversationId.map fun id => .str id.text) with
  | .ok conversationId => .ok ⟨conversationId, collectUserTexts [] titleGenerationLimits.userTextTotalLength state.messages⟩
  | .error _ => .error .invalidInput

def TitleContext.toJson (context : TitleContext) : Json := Json.object [
  ("conversationId", .str context.conversationId.text),
  ("userTexts", .arr (context.userTexts.map .str))]

/-! ### Titles -/

def normalizeHostTitle : JsValue → Option JsString
  | .str output =>
    if output.length = 0 ∨ catalogLimits.titleLength < output.length ∨ hasUnsafeTitleCharacter output = true then none
    else match parseTitle .rename (some (.str (normalizeWhitespace output))) with
      | .ok title => some title.text
      | .error _ => none
  | _ => none

def fallbackTitle : Option JsString → JsString
  | none => defaultConversationTitle
  | some firstUserText =>
    let truncated := trimEnd (truncateUtf16 firstUserText catalogLimits.titleLength)
    if truncated.length = 0 then defaultConversationTitle else truncated

def titleOf (context : TitleContext) (output : JsValue) : JsString :=
  (normalizeHostTitle output).getD (fallbackTitle context.userTexts.head?)

/-! ### Sanitized texts -/

structure Tidy (l : List UInt16) : Prop where
  whole : paired l = true
  clean : ∀ c ∈ l, isControlOrSeparator c = false
  single : spaced true l = true
  ends : l.rdropWhile isWhitespace = l

theorem replaceUnit_clean (c : UInt16) : isControlOrSeparator (replaceUnit c) = false ∧
    isLeadingSurrogate (replaceUnit c) = false ∧ isTrailingSurrogate (replaceUnit c) = false := by
  unfold replaceUnit
  split
  · decide
  · rename_i kept
    simpa [Bool.or_eq_true, not_or, and_assoc] using kept

theorem replaceCharacters_clean (l : List UInt16) :
    paired (replaceCharacters l) = true ∧ ∀ c ∈ replaceCharacters l, isControlOrSeparator c = false := by
  induction l using replaceCharacters.induct with
  | case1 => exact ⟨rfl, by rintro c ⟨⟩⟩
  | case2 c =>
    obtain ⟨clean, leading, trailing⟩ := replaceUnit_clean c
    refine ⟨by rw [replaceCharacters, paired, leading, trailing]; rfl, ?_⟩
    intro d member
    cases List.mem_singleton.mp member
    exact clean
  | case3 c d rest pair ih =>
    rw [replaceCharacters, if_pos pair]
    refine ⟨by rw [paired, if_pos pair]; exact ih.1, ?_⟩
    obtain ⟨low, high, low', high'⟩ := pair_bounds pair
    have other (e : UInt16) (lower : 0xd800 ≤ e.toNat) : isControlOrSeparator e = false := by
      simp only [isControlOrSeparator, Bool.or_eq_false_iff, Bool.and_eq_false_iff, decide_eq_false_iff_not,
        beq_eq_false_iff_ne, ne_eq, ← UInt16.toNat_inj, UInt16.le_iff_toNat_le, UInt16.lt_iff_toNat_lt,
        UInt16.reduceToNat]
      omega
    intro e member
    rcases List.mem_cons.mp member with rfl | member
    · exact other _ low
    · rcases List.mem_cons.mp member with rfl | member
      · exact other _ (by omega)
      · exact ih.2 e member
  | case4 c d rest apart ih =>
    obtain ⟨clean, leading, trailing⟩ := replaceUnit_clean c
    rw [replaceCharacters, if_neg apart]
    refine ⟨by rw [paired_cons leading trailing]; exact ih.1, ?_⟩
    intro e member
    rcases List.mem_cons.mp member with rfl | member
    · exact clean
    · exact ih.2 e member

theorem replaceCharacters_eq {l : List UInt16} (whole : paired l = true)
    (clean : ∀ c ∈ l, isControlOrSeparator c = false) : replaceCharacters l = l := by
  induction l using paired.induct with
  | case1 => rfl
  | case2 c =>
    rw [paired, Bool.and_eq_true, Bool.not_eq_true', Bool.not_eq_true'] at whole
    simp [replaceCharacters, replaceUnit, whole, clean c]
  | case3 c d rest pair ih =>
    rw [paired, if_pos pair] at whole
    rw [replaceCharacters, if_pos pair, ih whole fun e member => clean e (by simp [member])]
  | case4 c d rest apart ih =>
    rw [paired, if_neg apart, Bool.and_eq_true, Bool.and_eq_true, Bool.not_eq_true', Bool.not_eq_true'] at whole
    rw [replaceCharacters, if_neg apart, ih whole.2 fun e member => clean e (List.mem_cons_of_mem _ member)]
    simp [replaceUnit, whole.1, clean c]

theorem Tidy.cut {text : JsString} (tidy : Tidy text.units) (maximumLength : Nat) :
    Tidy (trimEnd (truncateUtf16 text maximumLength)).units := by
  obtain ⟨start, bound⟩ := prefix_truncateUtf16 text maximumLength
  have inside : (trimEnd (truncateUtf16 text maximumLength)).units <+: text.units :=
    (List.rdropWhile_prefix _ _).trans start
  refine ⟨paired_rdropWhile (paired_truncateUtf16 tidy.whole maximumLength), ?_, ?_, List.rdropWhile_idempotent ..⟩
  · intro c member
    exact tidy.clean c (inside.subset member)
  · obtain ⟨rest, same⟩ := inside
    have single := tidy.single
    rw [← same] at single
    exact spaced_prefix single

theorem sanitizeUserText_tidy (value : JsString) : Tidy (sanitizeUserText value).units := by
  obtain ⟨whole, clean⟩ := replaceCharacters_clean value.units
  have collapsed := paired_collapse whole false
  have trimmed : (sanitizeUserText value).units
      = ((collapse false (replaceCharacters value.units)).dropWhile isWhitespace).rdropWhile isWhitespace := rfl
  rw [trimmed]
  refine ⟨paired_rdropWhile (paired_dropWhile collapsed), ?_, ?_, List.rdropWhile_idempotent ..⟩
  · intro c member
    have inside := (List.dropWhile_suffix _).subset ((List.rdropWhile_prefix _ _).subset member)
    rcases collapse_members inside with rfl | there
    · decide
    · exact clean c there
  · obtain ⟨rest, same⟩ := List.rdropWhile_prefix isWhitespace
      (l := (collapse false (replaceCharacters value.units)).dropWhile isWhitespace)
    have single := spaced_dropWhile (spaced_collapse false (replaceCharacters value.units))
    rw [← same] at single
    exact spaced_prefix single

theorem Tidy.dropWhile {l : List UInt16} (tidy : Tidy l) : l.dropWhile isWhitespace = l := by
  cases l with
  | nil => rfl
  | cons c rest =>
    have single := tidy.single
    have black : ¬isWhitespace c = true := by
      intro blank
      rw [spaced, if_pos blank] at single
      simp at single
    exact List.dropWhile_cons_of_neg black

theorem Tidy.trim_eq {text : JsString} (tidy : Tidy text.units) : trim text = text := by
  apply JsString.ext
  show (text.units.dropWhile isWhitespace).rdropWhile isWhitespace = text.units
  rw [tidy.dropWhile, tidy.ends]

theorem Tidy.sanitized {text : JsString} (tidy : Tidy text.units) : sanitizeUserText text = text := by
  unfold sanitizeUserText normalizeWhitespace
  rw [replaceCharacters_eq tidy.whole tidy.clean]
  have same : (⟨collapse false text.units⟩ : JsString) = text :=
    JsString.ext (collapse_spaced (spaced_weaken tidy.single))
  rw [same, tidy.trim_eq]

theorem tidy_of_sanitized {text : JsString} (sanitized : sanitizeUserText text = text) : Tidy text.units := by
  rw [← sanitized]
  exact sanitizeUserText_tidy text

/-! ### Contexts within their limits -/

structure Presentable (text : JsString) : Prop where
  nonempty : text.length ≠ 0
  short : text.length ≤ titleGenerationLimits.userTextLength
  sanitized : sanitizeUserText text = text

def totalLength (texts : List JsString) : Nat := (texts.map JsString.length).sum

theorem capUserText_length (text : JsString) (remaining : Nat) :
    (capUserText text remaining).length ≤ min remaining titleGenerationLimits.userTextLength :=
  ((List.rdropWhile_prefix _ _).length_le).trans (prefix_truncateUtf16 text _).2

theorem capUserText_presentable {value : JsString} {remaining : Nat}
    (nonempty : (capUserText (sanitizeUserText value) remaining).length ≠ 0) :
    Presentable (capUserText (sanitizeUserText value) remaining) where
  nonempty := nonempty
  short := (capUserText_length _ remaining).trans (Nat.min_le_right _ _)
  sanitized := ((sanitizeUserText_tidy value).cut _).sanitized

structure Collected (userTexts : List JsString) (remaining : Nat) : Prop where
  few : userTexts.length ≤ titleGenerationLimits.userTextItems
  each : ∀ text ∈ userTexts, Presentable text
  total : totalLength userTexts + remaining ≤ titleGenerationLimits.userTextTotalLength

theorem Collected.add {userTexts : List JsString} {remaining : Nat} {value : JsString} (collected : Collected userTexts remaining)
    (room : userTexts.length < titleGenerationLimits.userTextItems)
    (nonempty : (capUserText (sanitizeUserText value) remaining).length ≠ 0) :
    Collected (userTexts ++ [capUserText (sanitizeUserText value) remaining])
      (remaining - (capUserText (sanitizeUserText value) remaining).length) where
  few := by
    rw [List.length_append, List.length_singleton]
    exact room
  each := by
    intro text member
    rcases List.mem_append.mp member with earlier | last
    · exact collected.each text earlier
    · cases List.mem_singleton.mp last
      exact capUserText_presentable nonempty
  total := by
    have bound := (capUserText_length (sanitizeUserText value) remaining).trans (Nat.min_le_left _ _)
    have total := collected.total
    simp only [totalLength, List.map_append, List.map_cons, List.map_nil, List.sum_append, List.sum_cons, List.sum_nil] at total ⊢
    omega

theorem collectUserTexts_collected {userTexts : List JsString} {remaining : Nat} (messages : List MessageRecord)
    (collected : Collected userTexts remaining) : ∃ rest, Collected (collectUserTexts userTexts remaining messages) rest := by
  induction messages generalizing userTexts remaining with
  | nil => exact ⟨remaining, collected⟩
  | cons message messages ih =>
    rw [collectUserTexts]
    by_cases skips : message.role ≠ some .user ∨ titleGenerationLimits.userTextItems ≤ userTexts.length ∨ remaining = 0
    · rw [if_pos skips]
      exact ih collected
    · rw [if_neg skips]
      dsimp only
      by_cases blank : (sanitizeUserText (joinTexts message.content)).length = 0
      · rw [if_pos blank]
        exact ih collected
      · rw [if_neg blank]
        by_cases empty : (capUserText (sanitizeUserText (joinTexts message.content)) remaining).length = 0
        · rw [if_pos empty]
          exact ih collected
        · rw [if_neg empty]
          exact ih (collected.add (Nat.lt_of_not_le fun full => skips (.inr (.inl full))) empty)

/-- The texts of the user's messages, which is all of the messages that the texts of a context depend on. -/
def userMessageTexts (messages : List MessageRecord) : List JsString :=
  (messages.filter fun message => message.role = some .user).map fun message => joinTexts message.content

def capTexts : List JsString → Nat → List JsString → List JsString
  | userTexts, _, [] => userTexts
  | userTexts, remaining, value :: rest =>
    if titleGenerationLimits.userTextItems ≤ userTexts.length ∨ remaining = 0 then capTexts userTexts remaining rest
    else
      let capped := capUserText (sanitizeUserText value) remaining
      if (sanitizeUserText value).length = 0 ∨ capped.length = 0 then capTexts userTexts remaining rest
      else capTexts (userTexts ++ [capped]) (remaining - capped.length) rest

theorem collectUserTexts_eq (userTexts : List JsString) (remaining : Nat) (messages : List MessageRecord) :
    collectUserTexts userTexts remaining messages = capTexts userTexts remaining (userMessageTexts messages) := by
  induction messages generalizing userTexts remaining with
  | nil => rfl
  | cons message messages ih =>
    rw [collectUserTexts]
    by_cases own : message.role = some .user
    · have texts : userMessageTexts (message :: messages) = joinTexts message.content :: userMessageTexts messages := by
        simp [userMessageTexts, own]
      rw [texts, capTexts]
      simp only [own, ne_eq, not_true_eq_false, false_or, ih]
      split
      · rfl
      · by_cases blank : (sanitizeUserText (joinTexts message.content)).length = 0
        · simp [blank]
        · simp [blank]
    · have texts : userMessageTexts (message :: messages) = userMessageTexts messages := by
        simp [userMessageTexts, own]
      rw [if_pos (.inl own), texts]
      exact ih userTexts remaining

theorem createTitleContext_ok {state : ConversationState} {context : TitleContext}
    (created : createTitleContext state = .ok context) :
    (∃ rest, Collected context.userTexts rest) ∧
      state.conversationId.map BoundedText.text = some context.conversationId.text ∧
      context.userTexts = capTexts [] titleGenerationLimits.userTextTotalLength (userMessageTexts state.messages) := by
  unfold createTitleContext at created
  cases read : parseCatalogText catalogLimits.identifierLength catalogIdentifierPattern .rename
      (state.conversationId.map fun id => .str id.text) with
  | error _ =>
    rw [read] at created
    cases created
  | ok conversationId =>
    rw [read] at created
    cases created
    refine ⟨collectUserTexts_collected state.messages ⟨by decide, by rintro text ⟨⟩, by decide⟩, ?_, collectUserTexts_eq _ _ _⟩
    cases identity : state.conversationId with
    | none =>
      rw [identity] at read
      cases read
    | some id =>
      rw [identity] at read
      unfold parseCatalogText at read
      simp only [Option.map_some] at read ⊢
      split at read
      · cases read
        rfl
      · cases read

/-! ### Titles that the catalog takes -/

/-- `parseConversationCatalogTitle` gives the title back. -/
def AcceptedTitle (title : JsString) : Prop :=
  ∀ operation, ∃ parsed, parseTitle operation (some (.str title)) = .ok parsed ∧ parsed.text = title

theorem accepted_of_tidy {title : JsString} (tidy : Tidy title.units) (nonempty : title.length ≠ 0)
    (short : title.length ≤ catalogLimits.titleLength) : AcceptedTitle title := by
  intro operation
  have controls : containsDisallowedControl title false = false := by
    rw [containsDisallowedControl, List.any_eq_false]
    intro c member
    have clean := tidy.clean c member
    simp only [isControlOrSeparator, Bool.or_eq_false_iff, Bool.and_eq_false_iff, decide_eq_false_iff_not,
      beq_eq_false_iff_ne, ne_eq, ← UInt16.toNat_inj, UInt16.le_iff_toNat_le, UInt16.lt_iff_toNat_lt,
      UInt16.reduceToNat] at clean
    simp only [Bool.false_and, Bool.not_false, Bool.and_true, Bool.or_eq_true, beq_iff_eq, decide_eq_true_eq,
      ← UInt16.toNat_inj, UInt16.lt_iff_toNat_lt, UInt16.reduceToNat]
    omega
  have given : parseTitle operation (some (.str title)) = .ok ⟨title, tidy.trim_eq, nonempty, short, controls⟩ :=
    parseTitle_text operation ⟨title, tidy.trim_eq, nonempty, short, controls⟩
  exact ⟨_, given, rfl⟩

theorem accepted_default : AcceptedTitle defaultConversationTitle := by
  have sanitized : sanitizeUserText defaultConversationTitle = defaultConversationTitle := by decide +kernel
  exact accepted_of_tidy (tidy_of_sanitized sanitized) (by decide +kernel) (by decide +kernel)

theorem accepted_fallbackTitle {firstUserText : Option JsString}
    (sanitized : ∀ text, firstUserText = some text → sanitizeUserText text = text) :
      AcceptedTitle (fallbackTitle firstUserText) := by
  cases firstUserText with
  | none => exact accepted_default
  | some text =>
    rw [fallbackTitle]
    split
    · exact accepted_default
    · rename_i nonempty
      have bound := ((List.rdropWhile_prefix isWhitespace (truncateUtf16 text catalogLimits.titleLength).units).length_le).trans
        (prefix_truncateUtf16 text _).2
      exact accepted_of_tidy ((tidy_of_sanitized (sanitized text rfl)).cut _) nonempty bound

theorem accepted_normalizeHostTitle {output : JsValue} {title : JsString} (read : normalizeHostTitle output = some title) :
    AcceptedTitle title := by
  unfold normalizeHostTitle at read
  cases output with
  | str text =>
    dsimp only at read
    split at read
    · cases read
    · cases parsed : parseTitle .rename (some (.str (normalizeWhitespace text))) with
      | error _ =>
        rw [parsed] at read
        cases read
      | ok own =>
        rw [parsed] at read
        cases read
        exact fun operation => ⟨own, parseTitle_text operation own, rfl⟩
  | _ => cases read

theorem accepted_titleOf {context : TitleContext} {rest : Nat} (collected : Collected context.userTexts rest)
    (output : JsValue) : AcceptedTitle (titleOf context output) := by
  unfold titleOf
  cases read : normalizeHostTitle output with
  | some title => exact accepted_normalizeHostTitle read
  | none =>
    refine accepted_fallbackTitle fun text first => (collected.each text ?_).sanitized
    exact List.mem_of_head? first

end Handrail.Conversation
