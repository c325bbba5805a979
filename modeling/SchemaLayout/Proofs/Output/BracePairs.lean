import Mathlib.Data.List.TakeWhile
import SchemaLayout.Proofs.Output.Patterns

/-!
# Brace pairs

Tokens stand in brace pairs: an opening brace, text without braces and a closing brace. The scanner
takes a pattern one character at a time. `readPairs` goes from one brace pair to the next instead,
as a loop over all matches of `\{([^{}]*)\}` does: the text in front of a pair is a literal, what is
inside must be a token, and behind the last pair is a literal again. A brace that is in no pair is
a fault of the literal it stands in, which is found before the token behind it is looked at.

* `scan_pair`, `scan_unbalanced`: what the scanner makes of text without braces and a pair, and of
  braces that do not begin that way.
* `scan_eq_readPairs`: the scanner reads what the loop reads.
-/
namespace SchemaLayout.Pattern

/-- No brace is among the characters. -/
def IsBraceFree (cs : List Char) : Prop := ∀ c ∈ cs, c ≠ '\x7b' ∧ c ≠ '\x7d'

theorem isBraceFree_nil : IsBraceFree [] := by simp [IsBraceFree]

theorem IsBraceFree.reverse {cs : List Char} (h : IsBraceFree cs) : IsBraceFree cs.reverse :=
  fun c hc => h c (List.mem_reverse.1 hc)

/-! ## What the scanner does -/

theorem scan_braceFree {cs : List Char} (h : IsBraceFree cs) (literal rest : List Char) :
    scan literal none (cs ++ rest) = scan (cs.reverse ++ literal) none rest := by
  induction cs generalizing literal with
  | nil => rfl
  | cons c cs ih =>
    obtain ⟨hopen, hclose⟩ := h c List.mem_cons_self
    rw [List.cons_append, scan, if_neg hopen, if_neg hclose,
      ih fun d hd => h d (List.mem_cons_of_mem _ hd)]
    simp

theorem scan_inside {cs : List Char} (h : IsBraceFree cs) (literal inside rest : List Char) :
    scan literal (some inside) (cs ++ rest) = scan literal (some (cs.reverse ++ inside)) rest := by
  induction cs generalizing inside with
  | nil => rfl
  | cons c cs ih =>
    obtain ⟨hopen, hclose⟩ := h c List.mem_cons_self
    rw [List.cons_append, scan, if_neg hopen, if_neg hclose,
      ih fun d hd => h d (List.mem_cons_of_mem _ hd)]
    simp

/-- Up to the first brace pair without braces inside, what is in front of it goes to the open
literal, which it closes. What is inside must be a token, and the rest is read on its own. -/
theorem scan_pair {gap inside : List Char} (hgap : IsBraceFree gap) (hinside : IsBraceFree inside)
    (literal rest : List Char) :
    scan literal none (gap ++ '\x7b' :: (inside ++ '\x7d' :: rest)) =
      (Token.ofText? (String.ofList inside)).elim (.error (.unknownToken (String.ofList inside)))
        fun token => (scan [] none rest).map fun segments =>
          withLiteral (gap.reverse ++ literal) (.token token :: segments) := by
  rw [scan_braceFree hgap, scan, if_pos rfl, scan_inside hinside, scan, if_neg (by decide),
    if_pos rfl, List.append_nil, List.reverse_reverse]
  cases Token.ofText? (String.ofList inside) <;> rfl

theorem exists_first_brace {cs : List Char} (h : ¬IsBraceFree cs) :
    ∃ before brace behind, cs = before ++ brace :: behind ∧ IsBraceFree before ∧
      (brace = '\x7b' ∨ brace = '\x7d') := by
  induction cs with
  | nil => exact absurd isBraceFree_nil h
  | cons c cs ih =>
    by_cases hbrace : c = '\x7b' ∨ c = '\x7d'
    · exact ⟨[], c, cs, rfl, isBraceFree_nil, hbrace⟩
    · have hc := not_or.1 hbrace
      have hrest : ¬IsBraceFree cs := fun hfree => h (List.forall_mem_cons.2 ⟨hc, hfree⟩)
      obtain ⟨before, brace, behind, rfl, hbefore, hbrace⟩ := ih hrest
      exact ⟨c :: before, brace, behind, rfl, List.forall_mem_cons.2 ⟨hc, hbefore⟩, hbrace⟩

/-- Braces are unbalanced where there are some and no pair without braces inside is behind text
without braces. -/
theorem scan_unbalanced {cs : List Char} (hbrace : ¬IsBraceFree cs)
    (hnone : ∀ gap inside rest, IsBraceFree gap → IsBraceFree inside →
      cs ≠ gap ++ '\x7b' :: (inside ++ '\x7d' :: rest)) (literal : List Char) :
    scan literal none cs = .error .unbalancedBrace := by
  obtain ⟨gap, brace, behind, rfl, hgap, hfirst⟩ := exists_first_brace hbrace
  rw [scan_braceFree hgap]
  rcases hfirst with rfl | rfl
  · rw [scan, if_pos rfl]
    by_cases hfree : IsBraceFree behind
    · rw [← List.append_nil behind, scan_inside hfree]
      rfl
    · obtain ⟨inside, brace, rest, rfl, hinside, hsecond⟩ := exists_first_brace hfree
      rw [scan_inside hinside]
      rcases hsecond with rfl | rfl
      · rw [scan, if_pos rfl]
      · exact absurd rfl (hnone gap inside rest hgap hinside)
  · rw [scan, if_neg (by decide), if_pos rfl]

/-! ## From pair to pair -/

def isText (c : Char) : Bool := c != '\x7b' && c != '\x7d'

/-- The inside of the brace pair that the text begins with, and the rest behind the pair. -/
def pairAt? : List Char → Option (List Char × List Char)
  | [] => none
  | c :: cs =>
    let behind := cs.dropWhile isText
    if c = '\x7b' ∧ behind.head? = some '\x7d' then some (cs.takeWhile isText, behind.tail)
    else none

/-- The leftmost brace pair: the text in front of it, its inside and the rest behind it. -/
def firstPair? : List Char → Option (List Char × List Char × List Char)
  | [] => none
  | c :: cs =>
    match pairAt? (c :: cs) with
    | some (inside, rest) => some ([], inside, rest)
    | none => (firstPair? cs).map fun (gap, inside, rest) => (c :: gap, inside, rest)

/-- The segments of a text that is in no pair: a literal, unless it is empty. -/
def readGap (gap : List Char) : Except PatternFault (List Segment) :=
  if gap.all isText then .ok (withLiteral gap.reverse []) else .error .unbalancedBrace

theorem isBraceFree_iff {cs : List Char} : IsBraceFree cs ↔ ∀ c ∈ cs, isText c = true := by
  simp [isText, IsBraceFree]

theorem eq_of_pairAt? {cs inside rest : List Char} (h : pairAt? cs = some (inside, rest)) :
    cs = '\x7b' :: (inside ++ '\x7d' :: rest) ∧ IsBraceFree inside := by
  cases cs with
  | nil => cases h
  | cons c cs =>
    rw [pairAt?] at h
    obtain ⟨⟨rfl, hclose⟩, hpair⟩ := Option.ite_none_right_eq_some.1 h
    obtain ⟨behind, hbehind⟩ := List.head?_eq_some_iff.1 hclose
    have hsplit := List.takeWhile_append_dropWhile (p := isText) (l := cs)
    rw [hbehind] at hpair hsplit
    cases hpair
    exact ⟨by rw [List.tail_cons, hsplit],
      isBraceFree_iff.2 fun d hd => List.mem_takeWhile_imp hd⟩

theorem pairAt?_pair {inside : List Char} (h : IsBraceFree inside) (rest : List Char) :
    pairAt? ('\x7b' :: (inside ++ '\x7d' :: rest)) = some (inside, rest) := by
  have hclose : ¬isText '\x7d' = true := by decide
  rw [pairAt?, List.dropWhile_append_of_pos (isBraceFree_iff.1 h),
    List.takeWhile_append_of_pos (isBraceFree_iff.1 h), List.dropWhile_cons_of_neg hclose,
    List.takeWhile_cons_of_neg hclose, if_pos ⟨rfl, rfl⟩, List.append_nil, List.tail_cons]

theorem eq_of_firstPair? {cs gap inside rest : List Char}
    (h : firstPair? cs = some (gap, inside, rest)) :
    cs = gap ++ '\x7b' :: (inside ++ '\x7d' :: rest) ∧ IsBraceFree inside := by
  induction cs generalizing gap with
  | nil => cases h
  | cons c cs ih =>
    rw [firstPair?] at h
    split at h
    · rename_i hpair
      cases h
      exact eq_of_pairAt? hpair
    · obtain ⟨⟨gap, inside, rest⟩, hrest, heq⟩ := Option.map_eq_some_iff.1 h
      cases heq
      obtain ⟨rfl, hinside⟩ := ih hrest
      exact ⟨rfl, hinside⟩

/-- A pair behind text without braces is the leftmost one. -/
theorem firstPair?_gap {gap inside : List Char} (hgap : IsBraceFree gap)
    (hinside : IsBraceFree inside) (rest : List Char) :
    firstPair? (gap ++ '\x7b' :: (inside ++ '\x7d' :: rest)) = some (gap, inside, rest) := by
  induction gap with
  | nil => rw [List.nil_append, firstPair?, pairAt?_pair hinside]
  | cons c gap ih =>
    obtain ⟨hc, hgap⟩ := List.forall_mem_cons.1 hgap
    have hnone : pairAt? (c :: (gap ++ '\x7b' :: (inside ++ '\x7d' :: rest))) = none :=
      if_neg fun hpair => hc.1 hpair.1
    rw [List.cons_append, firstPair?, hnone, ih hgap]
    rfl

theorem length_lt_of_firstPair? {cs gap inside rest : List Char}
    (h : firstPair? cs = some (gap, inside, rest)) : rest.length < cs.length := by
  obtain ⟨rfl, -⟩ := eq_of_firstPair? h
  simp only [List.length_append, List.length_cons]
  omega

/-- Reads a pattern from one brace pair to the next. -/
def readPairs (cs : List Char) : Except PatternFault (List Segment) :=
  match h : firstPair? cs with
  | none => readGap cs
  | some (gap, inside, rest) =>
    have _ := length_lt_of_firstPair? h
    do
      let literal ← readGap gap
      match Token.ofText? (String.ofList inside) with
      | none => .error (.unknownToken (String.ofList inside))
      | some token => return literal ++ .token token :: (← readPairs rest)
termination_by cs.length

theorem readPairs_of_none {cs : List Char} (h : firstPair? cs = none) :
    readPairs cs = readGap cs := by
  rw [readPairs]
  split
  · rfl
  · rename_i hpair
    cases h.symm.trans hpair

theorem readPairs_of_pair {cs gap inside rest : List Char}
    (h : firstPair? cs = some (gap, inside, rest)) :
    readPairs cs = (readGap gap).bind fun literal =>
      (Token.ofText? (String.ofList inside)).elim (.error (.unknownToken (String.ofList inside)))
        fun token => (readPairs rest).map fun segments => literal ++ .token token :: segments := by
  rw [readPairs]
  split
  · rename_i hnone
    cases h.symm.trans hnone
  · rename_i hpair
    cases h.symm.trans hpair
    cases Token.ofText? (String.ofList inside) <;> rfl

theorem readGap_of_braceFree {gap : List Char} (h : IsBraceFree gap) :
    readGap gap = .ok (withLiteral gap.reverse []) :=
  if_pos (List.all_eq_true.2 (isBraceFree_iff.1 h))

theorem readGap_of_brace {gap : List Char} (h : ¬IsBraceFree gap) :
    readGap gap = .error .unbalancedBrace :=
  if_neg fun hall => h (isBraceFree_iff.2 (List.all_eq_true.1 hall))

theorem withLiteral_append (literal : List Char) (segments : List Segment) :
    withLiteral literal [] ++ segments = withLiteral literal segments := by
  unfold withLiteral
  split <;> rfl

/-- **From pair to pair.** The scanner reads what a search for brace pairs reads, and finds the same
fault. -/
theorem scan_eq_readPairs (cs : List Char) : scan [] none cs = readPairs cs := by
  induction cs using readPairs.induct with
  | case1 cs hnone =>
    rw [readPairs_of_none hnone]
    by_cases hfree : IsBraceFree cs
    · rw [readGap_of_braceFree hfree, ← List.append_nil cs, scan_braceFree hfree, scan]
      simp
    · rw [readGap_of_brace hfree]
      refine scan_unbalanced hfree (fun gap inside rest hgap hinside heq => ?_) []
      rw [heq, firstPair?_gap hgap hinside] at hnone
      cases hnone
  | case2 cs gap inside rest hpair _ ih =>
    rw [readPairs_of_pair hpair]
    obtain ⟨hcs, hinside⟩ := eq_of_firstPair? hpair
    by_cases hgap : IsBraceFree gap
    · rw [readGap_of_braceFree hgap, hcs, scan_pair hgap hinside, ih]
      cases Token.ofText? (String.ofList inside) with
      | none => rfl
      | some token => simp [Except.bind, withLiteral_append]
    · rw [readGap_of_brace hgap]
      have hbrace : ¬IsBraceFree cs :=
        fun hfree => hgap fun c hc => hfree c (hcs ▸ List.mem_append_left _ hc)
      -- a pair behind text without braces would be the leftmost one, but that has a brace in front
      refine scan_unbalanced hbrace (fun other inside rest hother hinside heq => ?_) []
      rw [heq, firstPair?_gap hother hinside] at hpair
      cases hpair
      exact hgap hother

end SchemaLayout.Pattern
