import Mathlib.Data.List.Chain
import SchemaLayout.Proofs.Text.Kebab

/-!
# Where hyphens are

The loop behind `kebab` looks at the characters of the name around it and at the end of what it has
spelled. Here the rule is said of the name alone: `kept` are the characters that are no separators,
and `hyphenate` puts a hyphen between two of them in a row that are parted (`isParted`). What the
loop has spelled of a part of a name is `opened`, whatever is behind (`spell_opened`), so every name
is spelled by the rule (`toList_kebab`).

* `kebab_hyphenated`: for names in ASCII, the rule, where hyphens cannot be, and that a spelling is
  its own spelling.
-/
namespace SchemaLayout.Text

/-! ## The rule -/

/-- The characters of a name that are kept, each with its position. -/
def kept (cs : List Char) : List (Char × Nat) := cs.zipIdx.filter fun a => !isSeparator a.1

/-- Whether two kept characters in a row are parted. They are when separators stand between them,
and when they are neighbours of which the second is a capital behind a small letter, a digit, or a
capital that is the last one in front of a small letter. -/
def isParted (cs : List Char) (a b : Char × Nat) : Bool :=
  a.2 + 1 < b.2 || (isUpper b.1
    && (isLower a.1 || a.1.isDigit || (isUpper a.1 && cs[b.2 + 1]?.any isLower)))

/-- Kept characters in lower case, with one hyphen between two in a row that are parted. -/
def hyphenate (cs : List Char) : List (Char × Nat) → List Char
  | [] => []
  | [a] => lowerChar a.1
  | a :: b :: rest =>
    lowerChar a.1 ++ (if isParted cs a b then ['-'] else []) ++ hyphenate cs (b :: rest)

/-! ## Kept characters -/

theorem kept_concat (cs : List Char) (c : Char) :
    kept (cs ++ [c]) = kept cs ++ if isSeparator c then [] else [(c, cs.length)] := by
  unfold kept
  rw [List.zipIdx_append, List.filter_append]
  congr 1
  cases h : isSeparator c <;> simp [h]

theorem mem_kept {cs : List Char} {a : Char × Nat} (h : a ∈ kept cs) :
    isSeparator a.1 = false ∧ a.2 < cs.length := by
  obtain ⟨hmem, hkept⟩ := List.mem_filter.1 h
  have hlt := List.snd_lt_of_mem_zipIdx hmem
  exact ⟨by simpa using hkept, by simpa using hlt⟩

theorem hyphenate_concat (cs : List Char) (l : List (Char × Nat)) (b : Char × Nat) :
    hyphenate cs (l ++ [b]) = hyphenate cs l
      ++ (if l.getLast?.any (isParted cs · b) then ['-'] else []) ++ lowerChar b.1 := by
  induction l with
  | nil => rfl
  | cons a l ih =>
    cases l with
    | nil => rfl
    | cons a' l =>
      rw [List.cons_append, List.cons_append, hyphenate, ← List.cons_append, ih, hyphenate]
      simp [List.getLast?_cons_cons]

/-! ## The loop -/

theorem closeWord_of_head {c : Char} (h : c ≠ '-') (spelled : List Char) :
    closeWord (c :: spelled) = '-' :: c :: spelled := by
  unfold closeWord
  split
  · rename_i heq
    cases heq
  · rename_i heq
    cases heq
    exact absurd rfl h
  · rename_i heq
    cases heq
    rfl

theorem closeWord_closeWord (spelled : List Char) :
    closeWord (closeWord spelled) = closeWord spelled := by
  cases spelled with
  | nil => rfl
  | cons c spelled =>
    by_cases h : c = '-'
    · subst h
      rfl
    · rw [closeWord_of_head h]
      rfl

/-- A word that is spelled out is closed by a hyphen. -/
theorem closeWord_hyphenate (cs : List Char) {l : List (Char × Nat)}
    (h : ∀ a ∈ l, isSeparator a.1 = false) : closeWord (hyphenate cs l).reverse
      = (if l.isEmpty then [] else ['-']) ++ (hyphenate cs l).reverse := by
  rcases List.eq_nil_or_concat l with rfl | ⟨l, a, rfl⟩
  · rfl
  · have ha : isSeparator a.1 = false := h a (by simp)
    rw [List.concat_eq_append, hyphenate_concat, List.reverse_append]
    cases hlower : (lowerChar a.1).reverse with
    | nil => exact absurd (List.reverse_eq_nil_iff.1 hlower) (lowerChar_ne_nil a.1)
    | cons c rest =>
      have hc : c ∈ lowerChar a.1 := List.mem_reverse.1 (hlower ▸ List.mem_cons_self)
      have hne : c ≠ '-' := fun heq => hyphen_not_mem_lowerChar ha (heq ▸ hc)
      rw [List.cons_append, closeWord_of_head hne]
      simp

/-- What is spelled behind a part of a name, last character first: the spelling of the kept
characters, closed where the part ends in a separator. -/
def opened (cs before : List Char) : List Char :=
  if before.getLast?.any isSeparator then closeWord (hyphenate cs (kept before)).reverse
  else (hyphenate cs (kept before)).reverse

theorem opened_separator (cs before : List Char) {c : Char} (h : isSeparator c = true) :
    opened cs (before ++ [c]) = closeWord (opened cs before) := by
  have hkept : kept (before ++ [c]) = kept before := by rw [kept_concat, if_pos h, List.append_nil]
  unfold opened
  rw [hkept, List.getLast?_concat, Option.any_some, if_pos h]
  split
  · rw [closeWord_closeWord]
  · rfl

/-- The character behind the last kept one is parted from it where a separator is last or it starts
a word. -/
theorem isParted_last {before rest : List Char} {c d : Char} {a : Char × Nat}
    (ha : (kept (before ++ [d])).getLast? = some a) :
    isParted (before ++ [d] ++ c :: rest) a (c, (before ++ [d]).length)
      = (isSeparator d || startsWord (some d) c rest.head?) := by
  rw [kept_concat] at ha
  cases hd : isSeparator d with
  | true =>
    rw [hd, if_pos rfl, List.append_nil] at ha
    have hlt : a.2 < before.length := (mem_kept (List.mem_of_getLast? ha)).2
    have hgap : a.2 + 1 < (before ++ [d]).length := by simpa using hlt
    simp only [isParted, hgap, decide_true, Bool.true_or]
  | false =>
    rw [hd, if_neg Bool.false_ne_true, List.getLast?_concat] at ha
    cases ha
    have hnext : (before ++ [d] ++ c :: rest)[(before ++ [d]).length + 1]? = rest.head? := by
      rw [List.getElem?_append_right (Nat.le_succ _), Nat.succ_sub (Nat.le_refl _), Nat.sub_self,
        List.getElem?_cons_succ, List.head?_eq_getElem?]
    simp only [isParted, hnext, startsWord, Bool.false_or]
    simp

theorem opened_kept {cs before rest : List Char} {c : Char} (hcs : before ++ c :: rest = cs)
    (h : isSeparator c = false) : opened cs (before ++ [c]) = (lowerChar c).reverse
      ++ if startsWord before.getLast? c rest.head? then closeWord (opened cs before)
        else opened cs before := by
  have hlast : opened cs (before ++ [c]) = (lowerChar c).reverse
      ++ ((if (kept before).getLast?.any (isParted cs · (c, before.length)) then ['-'] else [])
        ++ (hyphenate cs (kept before)).reverse) := by
    unfold opened
    rw [List.getLast?_concat, Option.any_some, h, if_neg Bool.false_ne_true, kept_concat, h,
      if_neg Bool.false_ne_true, hyphenate_concat, List.reverse_append, List.reverse_append]
    congr 2
    split <;> rfl
  rw [hlast]
  congr 1
  have hclosed := closeWord_hyphenate cs fun a (ha : a ∈ kept before) => (mem_kept ha).1
  rcases List.eq_nil_or_concat before with rfl | ⟨before, d, rfl⟩
  · rfl
  rw [List.concat_eq_append] at hcs hclosed ⊢
  unfold opened
  rw [List.getLast?_concat, Option.any_some]
  cases hkept : (kept (before ++ [d])).getLast? with
  | none =>
    -- nothing is spelled yet
    rw [List.getLast?_eq_none_iff.1 hkept]
    cases isSeparator d <;> cases startsWord (some d) c rest.head? <;> rfl
  | some a =>
    have hne : (kept (before ++ [d])).isEmpty = false :=
      List.isEmpty_eq_false_iff.2 (List.ne_nil_of_mem (List.mem_of_getLast? hkept))
    rw [hne, if_neg Bool.false_ne_true] at hclosed
    rw [Option.any_some, ← hcs, isParted_last hkept, hcs]
    cases isSeparator d with
    | true =>
      simp only [Bool.true_or, if_true, closeWord_closeWord, ite_self]
      exact hclosed.symm
    | false =>
      simp only [Bool.false_or, Bool.false_eq_true, if_false, hclosed]
      split <;> rfl

/-- The loop spells what is behind by the rule. -/
theorem spell_opened (before rest : List Char) :
    spell (opened (before ++ rest) before) before.getLast? rest
      = opened (before ++ rest) (before ++ rest) := by
  induction rest generalizing before with
  | nil => rw [List.append_nil]; rfl
  | cons c rest ih =>
    have hstep := ih (before ++ [c])
    rw [List.append_assoc, List.singleton_append, List.getLast?_concat] at hstep
    rw [spell, ← hstep]
    split
    · rename_i h
      rw [opened_separator _ _ h]
    · rename_i h
      rw [opened_kept rfl (Bool.eq_false_iff.2 h)]

/-! ## Hyphens -/

/-- No hyphen is first, last, or behind another hyphen. -/
structure Hyphenated (cs : List Char) : Prop where
  first : cs.head? ≠ some '-'
  last : cs.getLast? ≠ some '-'
  single : cs.IsChain fun a b => ¬(a = '-' ∧ b = '-')

theorem hyphenated_of_not_mem {cs : List Char} (h : '-' ∉ cs) : Hyphenated cs where
  first hhead := h (List.mem_of_head? hhead)
  last hlast := h (List.mem_of_getLast? hlast)
  single := by
    induction cs with
    | nil => exact .nil
    | cons c cs ih =>
      rw [List.isChain_cons]
      exact ⟨fun _ _ hboth => h (hboth.1 ▸ List.mem_cons_self),
        ih fun hmem => h (List.mem_cons_of_mem _ hmem)⟩

/-- A word goes in front of what is spelled, with a hyphen or without. -/
theorem Hyphenated.word_append {word cs : List Char} (h : Hyphenated cs) (hne : cs ≠ [])
    (hword : '-' ∉ word) (hwordNe : word ≠ []) (parted : Bool) :
    Hyphenated (word ++ (if parted then ['-'] else []) ++ cs) where
  first := by
    obtain ⟨c, word, rfl⟩ := List.exists_cons_of_ne_nil hwordNe
    rintro ⟨rfl⟩
    exact hword List.mem_cons_self
  last := by
    rw [List.getLast?_append_of_ne_nil _ hne]
    exact h.last
  single := by
    have hinit := (hyphenated_of_not_mem hword).single
    cases parted with
    | false =>
      rw [if_neg Bool.false_ne_true, List.append_nil, List.isChain_append]
      exact ⟨hinit, h.single, fun c hc _ _ hboth => hword (hboth.1 ▸ List.mem_of_getLast? hc)⟩
    | true =>
      rw [if_pos rfl, List.append_assoc, List.isChain_append]
      refine ⟨hinit, ?_, fun c hc _ _ hboth => hword (hboth.1 ▸ List.mem_of_getLast? hc)⟩
      rw [List.singleton_append, List.isChain_cons]
      exact ⟨fun c hc hboth => h.first (hboth.2 ▸ hc), h.single⟩

theorem hyphenate_ne_nil (cs : List Char) (a : Char × Nat) (l : List (Char × Nat)) :
    hyphenate cs (a :: l) ≠ [] := by
  have hne := lowerChar_ne_nil a.1
  cases l with
  | nil => exact hne
  | cons b l => simp [hyphenate, hne]

theorem hyphenated_hyphenate (cs : List Char) {l : List (Char × Nat)}
    (h : ∀ a ∈ l, isSeparator a.1 = false) : Hyphenated (hyphenate cs l) := by
  induction l with
  | nil => exact hyphenated_of_not_mem List.not_mem_nil
  | cons a l ih =>
    have ha := hyphen_not_mem_lowerChar (h a List.mem_cons_self)
    cases l with
    | nil => exact hyphenated_of_not_mem ha
    | cons b l =>
      have hrest := ih fun c hc => h c (List.mem_cons_of_mem _ hc)
      exact hrest.word_append (hyphenate_ne_nil cs b l) ha (lowerChar_ne_nil a.1) _

theorem Hyphenated.dropWhile_reverse {cs : List Char} (h : Hyphenated cs) :
    cs.reverse.dropWhile (· == '-') = cs.reverse := by
  cases hrev : cs.reverse with
  | nil => rfl
  | cons c rest =>
    have hc : c ≠ '-' := by
      rintro rfl
      refine h.last ?_
      rw [← List.head?_reverse, hrev, List.head?_cons]
    rw [List.dropWhile_cons_of_neg (by simpa using hc)]

/-! ## Spellings -/

theorem toList_kebab (name : String) :
    (kebab name).toList = hyphenate name.toList (kept name.toList) := by
  have hspell : spell [] none name.toList = opened name.toList name.toList :=
    spell_opened [] name.toList
  have hkept := fun a (ha : a ∈ kept name.toList) => (mem_kept ha).1
  have htrim := (hyphenated_hyphenate name.toList hkept).dropWhile_reverse
  have hclosed := closeWord_hyphenate name.toList hkept
  have hdrop : (opened name.toList name.toList).dropWhile (· == '-')
      = (hyphenate name.toList (kept name.toList)).reverse := by
    unfold opened
    rw [hclosed]
    split
    · split
      · exact htrim
      · rw [List.singleton_append, List.dropWhile_cons_of_pos rfl]
        exact htrim
    · exact htrim
  rw [kebab, String.toList_ofList, hspell, hdrop, List.reverse_reverse]

/-- A character that stays as it is wherever it stands. -/
structure IsSettled (c : Char) : Prop where
  isSeparator : isSeparator c = false
  isUpper : isUpper c = false
  lowerChar : lowerChar c = [c]

/-- Settled characters with single hyphens among them are spelled as they are. -/
theorem spell_settled {cs : List Char} (spelled : List Char) (previous? : Option Char)
    (hsettled : ∀ c ∈ cs, c = '-' ∨ IsSettled c)
    (hsingle : cs.IsChain fun a b => ¬(a = '-' ∧ b = '-'))
    (hfirst : cs.head? = some '-' → ∃ c rest, spelled = c :: rest ∧ c ≠ '-') :
    spell spelled previous? cs = cs.reverse ++ spelled := by
  induction cs generalizing spelled previous? with
  | nil => rfl
  | cons c cs ih =>
    obtain ⟨hnext, hrest⟩ := List.isChain_cons.1 hsingle
    have hlater := fun d (hd : d ∈ cs) => hsettled d (List.mem_cons_of_mem _ hd)
    rw [spell, List.reverse_cons, List.append_assoc, List.singleton_append]
    rcases hsettled c List.mem_cons_self with rfl | hc
    · obtain ⟨d, spelled, rfl, hd⟩ := hfirst rfl
      rw [if_pos (by decide), closeWord_of_head hd]
      exact ih _ _ hlater hrest fun hhead => absurd ⟨rfl, rfl⟩ (hnext '-' hhead)
    · have hword : startsWord previous? c cs.head? = false := by
        cases previous? with
        | none => rfl
        | some previous => simp [startsWord, hc.isUpper]
      rw [if_neg (by simp [hc.isSeparator]), hword, hc.lowerChar]
      refine ih _ _ hlater hrest fun _ => ⟨c, spelled, rfl, ?_⟩
      rintro rfl
      exact absurd hc.isSeparator (by decide)

theorem Hyphenated.kebab_eq_self {name : String} (h : Hyphenated name.toList)
    (hsettled : ∀ c ∈ name.toList, c = '-' ∨ IsSettled c) : kebab name = name := by
  have hspell := spell_settled [] none hsettled h.single fun hhead => absurd hhead h.first
  rw [kebab, hspell, List.append_nil, h.dropWhile_reverse, List.reverse_reverse,
    String.ofList_toList]

theorem mem_hyphenate {cs : List Char} {l : List (Char × Nat)} {c : Char}
    (h : c ∈ hyphenate cs l) : c = '-' ∨ ∃ a ∈ l, c ∈ lowerChar a.1 := by
  induction l with
  | nil => cases h
  | cons a l ih =>
    cases l with
    | nil => exact Or.inr ⟨a, List.mem_cons_self, h⟩
    | cons b l =>
      rw [hyphenate, List.mem_append, List.mem_append] at h
      rcases h with (hlower | hparted) | hrest
      · exact Or.inr ⟨a, List.mem_cons_self, hlower⟩
      · split at hparted
        · exact Or.inl (List.mem_singleton.1 hparted)
        · cases hparted
      · exact (ih hrest).imp_right fun ⟨d, hd, hc⟩ => ⟨d, List.mem_cons_of_mem _ hd, hc⟩

/-- The lower-case form of a kept ASCII character is settled. -/
theorem isSettled_of_ascii {a c : Char} (hascii : a.toNat < 0x80) (ha : isSeparator a = false)
    (h : c ∈ lowerChar a) : IsSettled c := by
  have hall : ∀ code < 0x80, isSeparator (Char.ofNat code) = false →
      isSeparator (Char.ofNat code).toLower = false ∧ isUpper (Char.ofNat code).toLower = false ∧
        lowerChar (Char.ofNat code).toLower = [(Char.ofNat code).toLower] := by decide +kernel
  have hlower := hall a.toNat hascii
  rw [Char.ofNat_toNat] at hlower
  rw [lowerChar, if_pos hascii, List.mem_singleton] at h
  rw [h]
  obtain ⟨hseparator, hupper, hself⟩ := hlower ha
  exact ⟨hseparator, hupper, hself⟩

/-- **Kebab case.** A name in ASCII is spelled with its kept characters in order and in lower case.
Exactly one hyphen stands between two in a row that are parted, and no other hyphen anywhere. So
none is first, last or behind another, and the spelling is its own spelling. -/
theorem kebab_hyphenated (name : String) (hascii : ∀ c ∈ name.toList, c.toNat < 0x80) :
    (kebab name).toList = hyphenate name.toList (kept name.toList) ∧
    (kebab name).toList.head? ≠ some '-' ∧ (kebab name).toList.getLast? ≠ some '-' ∧
    ¬['-', '-'] <:+: (kebab name).toList ∧ kebab (kebab name) = kebab name := by
  have hrule := toList_kebab name
  have hshape : Hyphenated (kebab name).toList :=
    hrule ▸ hyphenated_hyphenate name.toList fun a ha => (mem_kept ha).1
  have hsettled : ∀ c ∈ (kebab name).toList, c = '-' ∨ IsSettled c := by
    intro c hc
    rw [hrule] at hc
    refine (mem_hyphenate hc).imp_right fun ⟨a, ha, hlower⟩ => ?_
    have hmem : a.1 ∈ name.toList := List.fst_mem_of_mem_zipIdx (List.mem_filter.1 ha).1
    exact isSettled_of_ascii (hascii _ hmem) (mem_kept ha).1 hlower
  refine ⟨hrule, hshape.first, hshape.last, fun hdouble => ?_, hshape.kebab_eq_self hsettled⟩
  simpa using hshape.single.infix hdouble

theorem kebab_hyphenated_httpProxy :
    (∀ c ∈ "_user__HTTPProxy2Id-".toList, c.toNat < 0x80) ∧
    kebab "_user__HTTPProxy2Id-" = "user-http-proxy2-id" ∧
    kebab (kebab "_user__HTTPProxy2Id-") = kebab "_user__HTTPProxy2Id-" := by
  have hascii : ∀ c ∈ "_user__HTTPProxy2Id-".toList, c.toNat < 0x80 := by simp
  have hkebab : kebab "_user__HTTPProxy2Id-" = "user-http-proxy2-id" := by decide
  obtain ⟨-, -, -, -, hagain⟩ := kebab_hyphenated "_user__HTTPProxy2Id-" hascii
  exact ⟨hascii, hkebab, hagain⟩

/-- Beyond ASCII a letter may have no small form, and what stands in front of it may get one. -/
example : kebab (kebab "A𝐀") ≠ kebab "A𝐀" := by decide

end SchemaLayout.Text
