import Mathlib.Data.List.Forall2
import SchemaLayout.Output.Layout
import SchemaLayout.Proofs.Names.Fallible
import SchemaLayout.Proofs.Output.Segments

/-!
# Paths from patterns

Of a text that is a relative path with good parts, the scanner reads the pattern
(`parse_eq_ok_iff_scan`). It writes back as that text (`text_of_parse`), so the parts of the text,
which were checked, are those of the pattern. Rendering puts other texts in place of tokens. Where
these have no slash the rendered path has the same parts, some of them with a token's text in it
(`forall₂_segments`); where they are segments the path is plain (`isPlain_render`).
-/
namespace SchemaLayout.Pattern

open SchemaLayout.Path (IsPlain IsSegment)

/-! ## Reading a pattern -/

theorem toList_text (pattern : Pattern) :
    pattern.text.toList = pattern.segments.flatMap fun segment => segment.text.toList := by
  rw [text, String.toList_join, List.flatMap_map]

theorem flatMap_withLiteral (literal : List Char) (segments : List Segment) :
    ((withLiteral literal segments).flatMap fun segment => segment.text.toList) =
      literal.reverse ++ segments.flatMap fun segment => segment.text.toList := by
  unfold withLiteral
  split
  · rename_i hempty
    rw [List.isEmpty_iff.1 hempty]
    rfl
  · simp [Segment.text]

theorem text_of_ofText? {text : String} {token : Token} (h : Token.ofText? text = some token) :
    token.text = text := by
  simpa using List.find?_some h

/-- Reading keeps the characters: those of the open literal, those inside open braces and those
still to come. -/
theorem flatMap_scan {literal : List Char} {token? : Option (List Char)} {rest : List Char}
    {segments : List Segment} (h : scan literal token? rest = .ok segments) :
    (segments.flatMap fun segment => segment.text.toList) =
      literal.reverse ++ (token?.elim [] fun inside => '\x7b' :: inside.reverse) ++ rest := by
  induction literal, token?, rest using scan.induct generalizing segments with
  | case1 literal =>
    rw [scan] at h
    cases h
    simp [flatMap_withLiteral]
  | case2 literal rest ih =>
    rw [scan, if_pos rfl] at h
    simp [ih h]
  | case3 literal rest hopen =>
    rw [scan, if_neg hopen, if_pos rfl] at h
    cases h
  | case4 literal c rest hopen hclose ih =>
    rw [scan, if_neg hopen, if_neg hclose] at h
    simp [ih h]
  | case5 literal inside => cases h
  | case6 literal inside rest =>
    rw [scan, if_pos rfl] at h
    cases h
  | case7 literal inside rest hnone hopen =>
    rw [scan, if_neg hopen, if_pos rfl, hnone] at h
    cases h
  | case8 literal inside rest token htoken hopen ih =>
    rw [scan, if_neg hopen, if_pos rfl, htoken] at h
    obtain ⟨segments, hrest, rfl⟩ := Fallible.map_eq_ok.1 h
    rw [flatMap_withLiteral, List.flatMap_cons, ih hrest, Segment.text, text_of_ofText? htoken]
    simp
  | case9 literal inside c rest hopen hclose ih =>
    rw [scan, if_neg hopen, if_neg hclose] at h
    simp [ih h]

/-- A relative path with slashes between parts that are names of their own. -/
structure IsRelative (text : String) : Prop where
  notBlank : Text.isBlankText text = false
  noBackslash : '\\' ∉ text.toList
  parts : ∀ part ∈ Path.segments text, part ≠ "" ∧ part ≠ "." ∧ part ≠ ".."

/-- A text without faults is relative. A slash in front counts as one already, as it leaves an empty
part. -/
theorem pathFault?_eq_none_iff {text : String} : pathFault? text = none ↔ IsRelative text := by
  have hparts : (Path.segments text).find? isBadPart = none ↔
      ∀ part ∈ Path.segments text, part ≠ "" ∧ part ≠ "." ∧ part ≠ ".." := by
    simp [isBadPart, and_assoc]
  have habsolute : text.toList.head? = some '/' → "" ∈ Path.segments text := by
    intro hhead
    obtain ⟨rest, hrest⟩ := List.head?_eq_some_iff.1 hhead
    unfold Path.segments
    rw [hrest, List.splitOn_cons_eq_if_modifyHead, if_pos (by simp)]
    exact List.mem_cons_self
  unfold pathFault?
  constructor
  · intro h
    split at h
    · cases h
    rename_i hblank
    split at h
    · cases h
    split at h
    · cases h
    rename_i hbackslash
    exact ⟨Bool.eq_false_iff.2 hblank, by simpa using hbackslash,
      hparts.1 (Option.map_eq_none_iff.1 h)⟩
  · intro h
    have hrelative : ¬text.toList.head? = some '/' :=
      fun hhead => (h.parts "" (habsolute hhead)).1 rfl
    have hbackslash : ¬text.toList.contains '\\' = true := by simpa using h.noBackslash
    rw [if_neg (by simp [h.notBlank]), if_neg hrelative, if_neg hbackslash, hparts.2 h.parts]
    rfl

theorem parse_eq_ok_iff_scan {text : String} {pattern : Pattern} : parse text = .ok pattern ↔
    IsRelative text ∧ scan [] none text.toList = .ok pattern.segments := by
  rw [← pathFault?_eq_none_iff]
  unfold parse
  cases pathFault? text with
  | some fault => simp
  | none =>
    simp only [Fallible.map_eq_ok, true_and]
    refine ⟨fun h => ?_, fun h => ⟨pattern.segments, h, rfl⟩⟩
    obtain ⟨segments, hscan, rfl⟩ := h
    exact hscan

theorem text_of_parse {text : String} {pattern : Pattern} (h : parse text = .ok pattern) :
    pattern.text = text := by
  obtain ⟨-, hscan⟩ := parse_eq_ok_iff_scan.1 h
  refine String.toList_inj.1 ?_
  rw [toList_text, flatMap_scan hscan]
  simp

theorem isPlain_of_parse {text : String} {pattern : Pattern} (h : parse text = .ok pattern) :
    IsPlain text := by
  obtain ⟨hrelative, -⟩ := parse_eq_ok_iff_scan.1 h
  intro part hpart
  simpa [isBadPart, and_assoc] using hrelative.parts part hpart

/-! ## Bad parts -/

/-- What is no part of its own is up to two dots. -/
theorem isBadPart_iff {part : String} :
    isBadPart part = true ↔ ∃ count ≤ 2, part.toList = List.replicate count '.' := by
  have hdots : ∀ count, part.toList = List.replicate count '.' ↔
      part = String.ofList (List.replicate count '.') := by
    intro count
    rw [← String.toList_inj, String.toList_ofList]
  simp only [isBadPart, Bool.or_eq_true, beq_iff_eq, hdots]
  constructor
  · rintro ((rfl | rfl) | rfl)
    · exact ⟨0, by decide, rfl⟩
    · exact ⟨1, by decide, rfl⟩
    · exact ⟨2, by decide, rfl⟩
  · rintro ⟨count, hcount, rfl⟩
    match count, hcount with
    | 0, _ => exact Or.inl (Or.inl rfl)
    | 1, _ => exact Or.inl (Or.inr rfl)
    | 2, _ => exact Or.inr rfl

theorem isBadPart_eq_false_of_infix {text part : String} (h : text.toList <:+: part.toList)
    (htext : isBadPart text = false) : isBadPart part = false := by
  refine Bool.eq_false_iff.2 fun hpart => Bool.false_ne_true (htext.symm.trans ?_)
  obtain ⟨count, hcount, hdots⟩ := isBadPart_iff.1 hpart
  rw [hdots] at h
  obtain ⟨fewer, hfewer, heq⟩ := List.sublist_replicate_iff.1 h.sublist
  exact isBadPart_iff.2 ⟨fewer, Nat.le_trans hfewer hcount, heq⟩

/-! ## The parts of a rendered pattern -/

theorem forall₂_modifyHead {α β : Type} {R : α → β → Prop} {f : α → α} {g : β → β}
    {as : List α} {bs : List β} (hhead : ∀ {a b}, R a b → R (f a) (g b))
    (h : List.Forall₂ R as bs) : List.Forall₂ R (as.modifyHead f) (bs.modifyHead g) := by
  cases h with
  | nil => exact .nil
  | cons hab hrest => exact .cons (hhead hab) hrest

theorem exists_of_mem_right {α β : Type} {R : α → β → Prop} {as : List α} {bs : List β}
    (h : List.Forall₂ R as bs) {b : β} (hb : b ∈ bs) : ∃ a ∈ as, R a b := by
  induction h with
  | nil => cases hb
  | cons hhead _ ih =>
    rcases List.mem_cons.1 hb with rfl | hrest
    · exact ⟨_, List.mem_cons_self, hhead⟩
    · obtain ⟨a, ha, hab⟩ := ih hrest
      exact ⟨a, List.mem_cons_of_mem _ ha, hab⟩

theorem splitOn_append_of_not_mem {c : Char} {word : List Char} (h : c ∉ word) (cs : List Char) :
    (word ++ cs).splitOn c = (cs.splitOn c).modifyHead (word ++ ·) := by
  induction word with
  | nil => exact (congrFun List.modifyHead_id _).symm
  | cons a word ih =>
    rw [List.mem_cons, not_or] at h
    rw [List.cons_append, List.splitOn_cons_eq_if_modifyHead, if_neg, ih h.2,
      List.modifyHead_modifyHead]
    · rfl
    · exact fun heq => h.1 (beq_iff_eq.1 heq).symm

/-- A part is as it was written, or has one of some words in it. -/
def Keeps (words : List Char → Prop) (written part : List Char) : Prop :=
  part = written ∨ ∃ word, words word ∧ word <:+: part

theorem Keeps.cons {words : List Char → Prop} {written part : List Char}
    (h : Keeps words written part) (c : Char) : Keeps words (c :: written) (c :: part) := by
  rcases h with rfl | ⟨word, hword, hinfix⟩
  · exact Or.inl rfl
  · exact Or.inr ⟨word, hword, hinfix.trans (List.suffix_cons c part).isInfix⟩

/-- Text in front of both keeps the parts. -/
theorem forall₂_literal {words : List Char → Prop} {written rendered : List Char}
    (h : List.Forall₂ (Keeps words) (written.splitOn '/') (rendered.splitOn '/'))
    (literal : List Char) : List.Forall₂ (Keeps words)
      ((literal ++ written).splitOn '/') ((literal ++ rendered).splitOn '/') := by
  induction literal with
  | nil => exact h
  | cons c literal ih =>
    rw [List.cons_append, List.cons_append, List.splitOn_cons_eq_if_modifyHead,
      List.splitOn_cons_eq_if_modifyHead]
    split
    · exact .cons (Or.inl rfl) ih
    · exact forall₂_modifyHead (fun hkeeps => hkeeps.cons c) ih

/-- A word in place of a token in front keeps the parts, when neither has a slash. -/
theorem forall₂_word {words : List Char → Prop} {written rendered : List Char}
    (h : List.Forall₂ (Keeps words) (written.splitOn '/') (rendered.splitOn '/'))
    {token word : List Char} (htoken : '/' ∉ token) (hword : '/' ∉ word) (hin : words word) :
    List.Forall₂ (Keeps words)
      ((token ++ written).splitOn '/') ((word ++ rendered).splitOn '/') := by
  rw [splitOn_append_of_not_mem htoken, splitOn_append_of_not_mem hword]
  exact forall₂_modifyHead
    (fun {_ part} _ => Or.inr ⟨word, hin, (List.prefix_append word part).isInfix⟩) h

section Rendering

variable {pattern : Pattern} {declaration : Declaration} {sharedDirectory : String}

/-- What a token stands for in the path of a declaration. -/
def tokenText (declaration : Declaration) (sharedDirectory : String) (token : Token) : String :=
  renderSegment declaration sharedDirectory (.token token)

theorem uses_iff {token : Token} : pattern.uses token = true ↔ .token token ∈ pattern.segments :=
  List.contains_iff_mem

theorem not_mem_text_token (token : Token) : '/' ∉ (Segment.token token).text.toList := by
  cases token <;> decide

/-- Where texts have no slash, the parts of a rendered path are those of the pattern, or have one
of the texts in them. -/
theorem forall₂_segments
    (h : ∀ token, pattern.uses token = true →
      '/' ∉ (tokenText declaration sharedDirectory token).toList) :
    List.Forall₂ (fun written part => part = written ∨ ∃ token, pattern.uses token = true ∧
        (tokenText declaration sharedDirectory token).toList <:+: part.toList)
      (Path.segments pattern.text)
      (Path.segments (pattern.render declaration sharedDirectory)) := by
  let words : List Char → Prop := fun word => ∃ token, pattern.uses token = true ∧
    (tokenText declaration sharedDirectory token).toList = word
  have hparts : ∀ pieces : List Segment, (∀ piece ∈ pieces, piece ∈ pattern.segments) →
      List.Forall₂ (Keeps words)
        ((pieces.flatMap fun piece => piece.text.toList).splitOn '/')
        ((pieces.flatMap fun piece =>
          (renderSegment declaration sharedDirectory piece).toList).splitOn '/') := by
    intro pieces hpieces
    induction pieces with
    | nil => exact .cons (Or.inl rfl) .nil
    | cons piece pieces ih =>
      have hrest := ih fun other hother => hpieces other (List.mem_cons_of_mem _ hother)
      rw [List.flatMap_cons, List.flatMap_cons]
      cases piece with
      | literal text => exact forall₂_literal hrest text.toList
      | token which =>
        have huses := uses_iff.2 (hpieces _ List.mem_cons_self)
        exact forall₂_word hrest (not_mem_text_token which) (h which huses) ⟨which, huses, rfl⟩
  have hall := hparts pattern.segments fun _ hpiece => hpiece
  unfold Path.segments render
  rw [toList_text, String.toList_join, List.flatMap_map, List.forall₂_map_left_iff,
    List.forall₂_map_right_iff]
  refine hall.imp fun written part hkeeps => ?_
  rw [String.toList_ofList]
  rcases hkeeps with rfl | ⟨_, ⟨token, huses, rfl⟩, hinfix⟩
  · exact Or.inl rfl
  · exact Or.inr ⟨token, huses, hinfix⟩

theorem length_segments_render
    (h : ∀ token, pattern.uses token = true →
      '/' ∉ (tokenText declaration sharedDirectory token).toList) :
    (Path.segments (pattern.render declaration sharedDirectory)).length =
      (Path.segments pattern.text).length :=
  (forall₂_segments h).length_eq.symm

/-- A rendered path is plain, where the texts are segments. -/
theorem isPlain_render (hpattern : IsPlain pattern.text)
    (h : ∀ token, pattern.uses token = true →
      IsSegment (tokenText declaration sharedDirectory token)) :
    IsPlain (pattern.render declaration sharedDirectory) := by
  intro part hpart
  have hparts := forall₂_segments fun token huses => (h token huses).1
  obtain ⟨written, hwritten, hkeeps⟩ := exists_of_mem_right hparts hpart
  rcases hkeeps with rfl | ⟨token, huses, hinfix⟩
  · exact hpattern _ hwritten
  · exact isBadPart_eq_false_of_infix hinfix (h token huses).2

end Rendering

/-! ## Index files -/

theorem not_mem_extensionOf {name : String} (h : '/' ∉ name.toList) :
    '/' ∉ (extensionOf name).toList := by
  unfold extensionOf
  simp only
  split
  · exact List.not_mem_nil
  · rw [String.toList_ofList, List.mem_cons, List.mem_reverse, not_or]
    refine ⟨by decide, fun hmem => h ?_⟩
    exact List.mem_reverse.1 ((List.takeWhile_prefix _).subset hmem)

theorem not_mem_extension (pattern : Pattern) : '/' ∉ pattern.extension.toList := by
  unfold extension
  split
  · rename_i tail _
    have hlast : (Path.segments tail).getLastD "" ∈ Path.segments tail := by
      have hne := Path.segments_ne_nil tail
      rw [List.getLastD_eq_getLast?, List.getLast?_eq_some_getLast hne]
      exact List.getLast_mem hne
    exact not_mem_extensionOf (Path.not_mem_of_mem_segments hlast)
  · exact List.not_mem_nil

theorem toList_indexFile (pattern : Pattern) :
    pattern.indexFile.toList = "index".toList ++ pattern.extension.toList := String.toList_append

theorem isSegment_indexFile (pattern : Pattern) : IsSegment pattern.indexFile := by
  constructor
  · rw [toList_indexFile, List.mem_append, not_or]
    exact ⟨by decide, not_mem_extension pattern⟩
  · have hinfix : "index".toList <:+: pattern.indexFile.toList := by
      rw [toList_indexFile]
      exact (List.prefix_append _ _).isInfix
    exact isBadPart_eq_false_of_infix hinfix (by decide)

/-! ## Extensions -/

theorem extensionOf_suffix (name : String) : (extensionOf name).toList <:+ name.toList := by
  have hsplit := List.takeWhile_append_dropWhile (p := (· != '.')) (l := name.toList.reverse)
  unfold extensionOf
  simp only
  split
  · exact List.nil_suffix
  · rename_i hlength
    cases hdrop : name.toList.reverse.dropWhile (· != '.') with
    | nil =>
      rw [hdrop, List.append_nil] at hsplit
      rw [hsplit, List.length_reverse, String.length_toList] at hlength
      exact absurd rfl hlength
    | cons c rest =>
      have hdot : c = '.' := by
        have hstop := List.head?_dropWhile_not (· != '.') name.toList.reverse
        rw [hdrop] at hstop
        simpa using hstop
      refine ⟨rest.reverse, ?_⟩
      rw [hdrop, hdot] at hsplit
      generalize name.toList.reverse.takeWhile (· != '.') = tail at hsplit ⊢
      rw [String.toList_ofList, ← List.reverse_inj, ← hsplit]
      simp

theorem extension_suffix_render (pattern : Pattern) (d : Declaration) (sharedDirectory : String) :
    pattern.extension.toList <:+ (pattern.render d sharedDirectory).toList := by
  unfold extension
  split
  · rename_i tail hlast
    have hsegments : pattern.segments = pattern.segments.dropLast ++ [.literal tail] :=
      (List.dropLast_append_getLast? _ hlast).symm
    have hrender : tail.toList <:+ (pattern.render d sharedDirectory).toList := by
      unfold render
      rw [hsegments, String.toList_join, List.flatMap_map, List.flatMap_append]
      refine ⟨_, congrArg _ ?_⟩
      simp [renderSegment]
    exact ((extensionOf_suffix _).trans (Path.getLastD_segments_suffix tail)).trans hrender
  · exact List.nil_suffix

end SchemaLayout.Pattern
