import Mathlib.Data.List.Chain
import SchemaLayout.Proofs.Output.BracePairs

/-!
# The grammar of patterns

A pattern is written as text without braces and tokens (`IsPiece`), in any number and order. The
scanner reads every such text (`scan_pieces`) and gathers its pieces: text in a row becomes one
literal, and an empty literal goes away (`gather`). What it reads is always gathered
(`isGathered_of_scan`), and gathered segments are read back as they are (`gather_eq_self`).

* `parse_eq_ok_iff`: what is read is the one pattern that is gathered and has the text.
* `parse_grammar`: which texts are patterns, and as what each of them is read.
-/
namespace SchemaLayout.Pattern

/-- A token, or text without braces. -/
def IsPiece : Segment → Prop
  | .literal text => IsBraceFree text.toList
  | .token _ => True

def isLiteral : Segment → Bool
  | .literal _ => true
  | .token _ => false

/-- Pieces of which none is empty text, and no two texts are in a row. -/
structure IsGathered (segments : List Segment) : Prop where
  pieces : ∀ segment ∈ segments, IsPiece segment
  nonempty : .literal "" ∉ segments
  apart : segments.IsChain fun a b => ¬(isLiteral a = true ∧ isLiteral b = true)

/-! ## Tokens -/

theorem isBraceFree_token (token : Token) : IsBraceFree token.text.toList := by
  cases token <;> simp [IsBraceFree, Token.text]

theorem ofText?_text (token : Token) : Token.ofText? token.text = some token := by
  cases token <;> decide

theorem scan_token (literal : List Char) (token : Token) (rest : List Char) :
    scan literal none ((Segment.token token).text.toList ++ rest) =
      (scan [] none rest).map fun segments => withLiteral literal (.token token :: segments) := by
  have hwritten : (Segment.token token).text.toList ++ rest =
      [] ++ '\x7b' :: (token.text.toList ++ '\x7d' :: rest) := by
    simp [Segment.text]
  rw [hwritten, scan_pair isBraceFree_nil (isBraceFree_token token), String.ofList_toList,
    ofText?_text]
  rfl

/-! ## Gathering -/

/-- The segments that pieces behind an open literal are gathered to. The literal is given last
character first. -/
def gather (literal : List Char) : List Segment → List Segment
  | [] => withLiteral literal []
  | .literal text :: pieces => gather (text.toList.reverse ++ literal) pieces
  | .token which :: pieces => withLiteral literal (.token which :: gather [] pieces)

/-- A text of pieces is read as the pieces gathered. -/
theorem scan_pieces {pieces : List Segment} (h : ∀ piece ∈ pieces, IsPiece piece)
    (literal : List Char) :
    scan literal none (pieces.flatMap fun piece => piece.text.toList) =
      .ok (gather literal pieces) := by
  induction pieces generalizing literal with
  | nil => rfl
  | cons piece pieces ih =>
    have hrest := ih fun other hother => h other (List.mem_cons_of_mem _ hother)
    rw [List.flatMap_cons]
    cases piece with
    | literal text =>
      have hfree : IsBraceFree text.toList := h _ List.mem_cons_self
      rw [Segment.text, scan_braceFree hfree, hrest, gather]
    | token which =>
      rw [scan_token, hrest, gather]
      rfl

theorem withLiteral_toList {text : String} (h : text ≠ "") (segments : List Segment) :
    withLiteral (text.toList.reverse ++ []) segments = .literal text :: segments := by
  have hne : text.toList ≠ [] := fun hnil => h (String.toList_eq_nil_iff.1 hnil)
  unfold withLiteral
  rw [List.append_nil, if_neg (by simpa using hne), List.reverse_reverse, String.ofList_toList]

theorem gather_eq_self : ∀ {segments : List Segment}, IsGathered segments →
    gather [] segments = segments
  | [], _ => rfl
  | .token which :: segments, h => by
    have hrest : IsGathered segments :=
      ⟨fun a ha => h.pieces a (List.mem_cons_of_mem _ ha),
        fun hmem => h.nonempty (List.mem_cons_of_mem _ hmem), h.apart.of_cons⟩
    rw [gather, gather_eq_self hrest]
    rfl
  | [.literal text], h => by
    have hne : text ≠ "" := fun heq => h.nonempty (heq ▸ List.mem_cons_self)
    rw [gather, gather, withLiteral_toList hne]
  | .literal text :: .token which :: segments, h => by
    have hne : text ≠ "" := fun heq => h.nonempty (heq ▸ List.mem_cons_self)
    have hrest : IsGathered segments :=
      ⟨fun a ha => h.pieces a (List.mem_cons_of_mem _ (List.mem_cons_of_mem _ ha)),
        fun hmem => h.nonempty (List.mem_cons_of_mem _ (List.mem_cons_of_mem _ hmem)),
        h.apart.of_cons.of_cons⟩
    rw [gather, gather, gather_eq_self hrest, withLiteral_toList hne]
  | .literal _ :: .literal _ :: _, h => absurd ⟨rfl, rfl⟩ (List.isChain_cons_cons.1 h.apart).1

theorem isGathered_token {segments : List Segment} (h : IsGathered segments) (token : Token) :
    IsGathered (.token token :: segments) where
  pieces a ha := by
    rcases List.mem_cons.1 ha with rfl | hold
    · trivial
    · exact h.pieces a hold
  nonempty hmem := h.nonempty ((List.mem_cons.1 hmem).resolve_left (by simp))
  apart := List.isChain_cons.2 ⟨fun _ _ hboth => Bool.false_ne_true hboth.1, h.apart⟩

/-- An open literal goes in front of gathered segments that begin with no text. -/
theorem isGathered_withLiteral {literal : List Char} {segments : List Segment}
    (hfree : IsBraceFree literal) (h : IsGathered segments)
    (hhead : ∀ a ∈ segments.head?, isLiteral a = false) :
    IsGathered (withLiteral literal segments) := by
  unfold withLiteral
  split
  · exact h
  · rename_i hne
    have htext : String.ofList literal.reverse ≠ "" := by
      simpa [← String.toList_inj] using hne
    refine ⟨fun a ha => ?_, fun hmem => ?_, List.isChain_cons.2 ⟨fun b hb hboth => ?_, h.apart⟩⟩
    · rcases List.mem_cons.1 ha with rfl | hold
      · have hpiece : IsBraceFree (String.ofList literal.reverse).toList := by
          rw [String.toList_ofList]
          exact hfree.reverse
        exact hpiece
      · exact h.pieces a hold
    · rcases List.mem_cons.1 hmem with heq | hold
      · exact htext (Segment.literal.inj heq).symm
      · exact h.nonempty hold
    · exact Bool.false_ne_true ((hhead b hb).symm.trans hboth.2)

theorem isGathered_nil : IsGathered [] := ⟨by simp, by simp, .nil⟩

theorem isGathered_of_scan {literal : List Char} {token? : Option (List Char)} {rest : List Char}
    {segments : List Segment} (hfree : IsBraceFree literal)
    (h : scan literal token? rest = .ok segments) : IsGathered segments := by
  induction literal, token?, rest using scan.induct generalizing segments with
  | case1 literal =>
    rw [scan] at h
    cases h
    exact isGathered_withLiteral hfree isGathered_nil (by simp)
  | case2 literal rest ih =>
    rw [scan, if_pos rfl] at h
    exact ih hfree h
  | case3 literal rest hopen =>
    rw [scan, if_neg hopen, if_pos rfl] at h
    cases h
  | case4 literal c rest hopen hclose ih =>
    rw [scan, if_neg hopen, if_neg hclose] at h
    refine ih (fun d hd => ?_) h
    rcases List.mem_cons.1 hd with rfl | hold
    · exact ⟨hopen, hclose⟩
    · exact hfree d hold
  | case5 literal inside => cases h
  | case6 literal inside rest =>
    rw [scan, if_pos rfl] at h
    cases h
  | case7 literal inside rest hnone hopen =>
    rw [scan, if_neg hopen, if_pos rfl, hnone] at h
    cases h
  | case8 literal inside rest token htoken hopen ih =>
    rw [scan, if_neg hopen, if_pos rfl, htoken] at h
    obtain ⟨segments, hrest, rfl⟩ := Fallible.map_eq_ok.1 h
    have hgathered := ih (fun d hd => absurd hd List.not_mem_nil) hrest
    exact isGathered_withLiteral hfree (isGathered_token hgathered token) (by simp [isLiteral])
  | case9 literal inside c rest hopen hclose ih =>
    rw [scan, if_neg hopen, if_neg hclose] at h
    exact ih hfree h

/-! ## Texts of patterns -/

/-- What is read of a text is the one pattern of gathered segments that is written like it. -/
theorem parse_eq_ok_iff {text : String} {pattern : Pattern} : parse text = .ok pattern ↔
    IsRelative text ∧ IsGathered pattern.segments ∧ pattern.text = text := by
  rw [parse_eq_ok_iff_scan]
  refine ⟨fun h => ?_, fun h => ?_⟩
  · obtain ⟨hrelative, hscan⟩ := h
    have hwritten := text_of_parse (parse_eq_ok_iff_scan.2 ⟨hrelative, hscan⟩)
    exact ⟨hrelative, isGathered_of_scan isBraceFree_nil hscan, hwritten⟩
  · obtain ⟨hrelative, hgathered, rfl⟩ := h
    rw [toList_text, scan_pieces hgathered.pieces, gather_eq_self hgathered]
    exact ⟨hrelative, rfl⟩

/-- **The grammar of patterns.** A text is a pattern exactly when it is a relative path with good
parts that is put together of text without braces and tokens. What is read of it is then such a
row of pieces without empty text and without two texts in a row; there is only one, and it is
written like the text. -/
theorem parse_grammar (text : String) :
    ((∃ pattern, parse text = .ok pattern) ↔ IsRelative text ∧
      ∃ pieces : List Segment, (∀ piece ∈ pieces, IsPiece piece) ∧
        String.join (pieces.map Segment.text) = text) ∧
    ∀ pattern, parse text = .ok pattern ↔
      IsRelative text ∧ IsGathered pattern.segments ∧ pattern.text = text := by
  refine ⟨⟨fun h => ?_, fun h => ?_⟩, fun pattern => parse_eq_ok_iff⟩
  · obtain ⟨pattern, hpattern⟩ := h
    obtain ⟨hrelative, hgathered, hwritten⟩ := parse_eq_ok_iff.1 hpattern
    exact ⟨hrelative, pattern.segments, hgathered.pieces, hwritten⟩
  · obtain ⟨hrelative, pieces, hpieces, rfl⟩ := h
    refine ⟨⟨gather [] pieces⟩, parse_eq_ok_iff_scan.2 ⟨hrelative, ?_⟩⟩
    rw [← scan_pieces hpieces]
    exact congrArg _ (toList_text ⟨pieces⟩)

/-- A token in two pairs of braces is no piece. -/
example : parse "\x7bmodel\x7d/\x7b\x7bname\x7d\x7d.ts" = .error .unbalancedBrace := by decide

end SchemaLayout.Pattern
