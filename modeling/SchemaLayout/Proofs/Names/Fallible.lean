/-!
# Steps that may fail

What it takes for a computation in `Except` to succeed or fail. A fold succeeds when every one of
its steps does; what each successful step keeps, a successful fold keeps.
-/
namespace SchemaLayout.Fallible

variable {α : Type u} {β : Type v} {γ : Type x} {ε : Type w}

theorem eq_ok_of_toOption {computed : Except ε α} {a : α} (h : computed.toOption = some a) :
    computed = .ok a := by
  cases computed with
  | error cause => cases h
  | ok b => cases h; rfl

theorem map_eq_ok {f : α → γ} {computed : Except ε α} {result : γ} :
    computed.map f = .ok result ↔ ∃ a, computed = .ok a ∧ f a = result := by
  cases computed with
  | error cause =>
    constructor
    · intro h; cases h
    · rintro ⟨a, h, -⟩; cases h
  | ok a =>
    constructor
    · intro h; cases h; exact ⟨a, rfl, rfl⟩
    · rintro ⟨a', h, rfl⟩; cases h; rfl

theorem bind_eq_ok {α γ : Type u} {computed : Except ε α} {next : α → Except ε γ} {result : γ} :
    (computed >>= next) = .ok result ↔ ∃ a, computed = .ok a ∧ next a = .ok result := by
  cases computed with
  | error cause =>
    constructor
    · intro h; cases h
    · rintro ⟨a, h, -⟩; cases h
  | ok a =>
    constructor
    · intro h; exact ⟨a, rfl, h⟩
    · rintro ⟨a', h, hnext⟩; cases h; exact hnext

theorem bind_eq_error {α γ : Type u} {computed : Except ε α} {next : α → Except ε γ} {cause : ε} :
    (computed >>= next) = .error cause ↔
      computed = .error cause ∨ ∃ a, computed = .ok a ∧ next a = .error cause := by
  cases computed with
  | error other =>
    constructor
    · intro h; cases h; exact Or.inl rfl
    · rintro (h | ⟨a, h, -⟩)
      · cases h; rfl
      · cases h
  | ok a =>
    constructor
    · intro h; exact Or.inr ⟨a, rfl, h⟩
    · rintro (h | ⟨a', h, hnext⟩)
      · cases h
      · cases h; exact hnext

variable {step : β → α → Except ε β}

theorem foldlM_cons_eq_ok {a : α} {l : List α} {b result : β} :
    (a :: l).foldlM step b = .ok result ↔
      ∃ next, step b a = .ok next ∧ l.foldlM step next = .ok result := by
  rw [List.foldlM_cons]
  cases hstep : step b a with
  | error cause =>
    constructor
    · intro h; cases h
    · rintro ⟨next, h, -⟩; cases h
  | ok next =>
    constructor
    · intro h; exact ⟨next, rfl, h⟩
    · rintro ⟨next', h, hrest⟩; cases h; exact hrest

theorem foldlM_cons_eq_error {a : α} {l : List α} {b : β} {cause : ε} :
    (a :: l).foldlM step b = .error cause ↔ step b a = .error cause ∨
      ∃ next, step b a = .ok next ∧ l.foldlM step next = .error cause := by
  rw [List.foldlM_cons]
  cases hstep : step b a with
  | error other =>
    constructor
    · intro h; cases h; exact Or.inl rfl
    · rintro (h | ⟨next, h, -⟩)
      · cases h; rfl
      · cases h
  | ok next =>
    constructor
    · intro h; exact Or.inr ⟨next, rfl, h⟩
    · rintro (h | ⟨next', h, hrest⟩)
      · cases h
      · cases h; exact hrest

/-- What every successful step over an element of the list keeps, a successful fold keeps. -/
theorem foldlM_keeps_of_mem {P : β → Prop} {l : List α}
    (hstep : ∀ {b a next}, a ∈ l → P b → step b a = .ok next → P next)
    {b result : β} (hb : P b) (h : l.foldlM step b = .ok result) : P result := by
  induction l generalizing b with
  | nil => cases h; exact hb
  | cons a l ih =>
    obtain ⟨next, hnext, hrest⟩ := foldlM_cons_eq_ok.1 h
    exact ih (fun ha => hstep (List.mem_cons_of_mem _ ha)) (hstep List.mem_cons_self hb hnext) hrest

/-- What every successful step keeps, a successful fold keeps. -/
theorem foldlM_keeps {P : β → Prop} (hstep : ∀ {b a next}, P b → step b a = .ok next → P next)
    {l : List α} {b result : β} (hb : P b) (h : l.foldlM step b = .ok result) : P result :=
  foldlM_keeps_of_mem (fun _ => hstep) hb h

/-- What every successful step keeps of the elements done so far, a successful fold keeps of those
that it does next. -/
theorem foldlM_keeps_done {P : List α → β → Prop} {all : List α}
    (hstep : ∀ {done a rest b next}, all = done ++ a :: rest → P done b → step b a = .ok next →
      P (done ++ [a]) next)
    {done l : List α} (rest : List α) {b result : β} (hall : all = done ++ (l ++ rest))
    (hb : P done b) (h : l.foldlM step b = .ok result) : P (done ++ l) result := by
  induction l generalizing done b with
  | nil =>
    cases h
    rwa [List.append_nil]
  | cons a l ih =>
    obtain ⟨next, hnext, hrest⟩ := foldlM_cons_eq_ok.1 h
    have hrun := ih (by simpa using hall) (hstep hall hb hnext) hrest
    rwa [List.append_assoc, List.singleton_append] at hrun

/-- A fold fails at an element of the list, when those in front of it succeed. -/
theorem foldlM_eq_error {l : List α} {b : β} {cause : ε} (h : l.foldlM step b = .error cause) :
    ∃ done a rest reached, l = done ++ a :: rest ∧ done.foldlM step b = .ok reached ∧
      step reached a = .error cause := by
  induction l generalizing b with
  | nil => cases h
  | cons a l ih =>
    rcases foldlM_cons_eq_error.1 h with hnow | ⟨next, hnext, hlater⟩
    · exact ⟨[], a, l, b, rfl, rfl, hnow⟩
    · obtain ⟨done, a', rest, reached, rfl, hreached, hlast⟩ := ih hlater
      exact ⟨a :: done, a', rest, reached, rfl, foldlM_cons_eq_ok.2 ⟨next, hnext, hreached⟩, hlast⟩

theorem foldlM_fails {Q : ε → Prop} (hstep : ∀ {b a cause}, step b a = .error cause → Q cause)
    {l : List α} {b : β} {cause : ε} (h : l.foldlM step b = .error cause) : Q cause := by
  obtain ⟨_, _, _, _, _, _, hlast⟩ := foldlM_eq_error h
  exact hstep hlast

end SchemaLayout.Fallible
