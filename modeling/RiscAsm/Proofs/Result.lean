import RiscAsm.Text.Basic

/-!
# Results of computations that may fail

How a sequence of steps and a pass over a list succeed or fail: they succeed when every step does
(`bind_eq_ok`, `mapM_eq_ok`, `mapM_of_getElem?`) and fail with the fault of the first step that
fails (`bind_eq_error`, `mapM_eq_error`).  `Meets bad P` says of a step that its result has the
property `P` and that it does not fail with `bad`; sequences of such steps are such steps
(`Meets.bind`). `Agree R` says of two steps that they fail alike or have related results
(`Agree.bind`).  At the end stand lemmas on look-ups in lists of pairs.
-/

namespace RiscAsm

namespace Result

variable {ε α β : Type}

/-! ## Sequences of steps -/

/-- A sequence succeeds when both steps succeed. -/
theorem bind_eq_ok {x : Except ε α} {f : α → Except ε β} {b : β} :
    (x >>= f) = .ok b ↔ ∃ a, x = .ok a ∧ f a = .ok b := by
  cases x with
  | error e => simp [bind, Except.bind]
  | ok a => simp [bind, Except.bind]

/-- A sequence has a result when both steps have one. -/
theorem exists_bind_eq_ok {x : Except ε α} {f : α → Except ε β} :
    (∃ b, (x >>= f) = .ok b) ↔ ∃ a, x = .ok a ∧ ∃ b, f a = .ok b := by
  simp only [bind_eq_ok]
  constructor
  · rintro ⟨b, a, hx, hf⟩
    exact ⟨a, hx, b, hf⟩
  · rintro ⟨a, hx, b, hf⟩
    exact ⟨b, a, hx, hf⟩

/-- A sequence fails when the first step fails, or the second one after it. -/
theorem bind_eq_error {x : Except ε α} {f : α → Except ε β} {e : ε} :
    (x >>= f) = .error e ↔ x = .error e ∨ ∃ a, x = .ok a ∧ f a = .error e := by
  cases x with
  | error e => simp [bind, Except.bind]
  | ok a => simp [bind, Except.bind]

/-- A step that only returns a value succeeds with it. -/
theorem pure_eq_ok {a b : α} : (pure a : Except ε α) = .ok b ↔ a = b := by
  simp [pure, Except.pure]

/-- A step that only returns a value does not fail. -/
theorem pure_ne_error {a : α} {e : ε} : (pure a : Except ε α) ≠ .error e := by
  simp [pure, Except.pure]

/-- A step succeeds however its faults are told. -/
theorem mapError_eq_ok {f : ε → β} {x : Except ε α} {a : α} : x.mapError f = .ok a ↔ x = .ok a := by
  constructor
  · intro h
    cases x with
    | error e => cases h
    | ok b => rw [Except.ok.inj h]
  · rintro rfl
    rfl

/-- A step fails as its fault is told. -/
theorem mapError_eq_error {f : ε → β} {x : Except ε α} {e : β} :
    x.mapError f = .error e ↔ ∃ cause, x = .error cause ∧ f cause = e := by
  constructor
  · intro h
    cases x with
    | error cause => exact ⟨cause, rfl, Except.error.inj h⟩
    | ok a => cases h
  · rintro ⟨cause, rfl, rfl⟩
    rfl

theorem toOption_eq_some {x : Except ε α} {a : α} : x.toOption = some a ↔ x = .ok a := by
  cases x <;> simp [Except.toOption]

theorem isSome_toOption (x : Except ε α) : x.toOption.isSome = x.isOk := by
  cases x <;> rfl

/-- Two steps with the same result, if any, both have it or both fail. -/
theorem toOption_cases {x y : Except ε α} (h : x.toOption = y.toOption) :
    (∃ a, x = .ok a ∧ y = .ok a) ∨ ∃ e e', x = .error e ∧ y = .error e' := by
  cases x with
  | error e =>
      cases y with
      | error e' => exact .inr ⟨e, e', rfl, rfl⟩
      | ok a => cases h
  | ok a =>
      have hy : y = .ok a := toOption_eq_some.mp h.symm
      exact .inl ⟨a, rfl, hy⟩

/-- Two sequences have the same result when their first steps have the same result and what follows
has the same result after it. -/
theorem toOption_bind_congr {x y : Except ε α} {f g : α → Except ε β}
    (h : x.toOption = y.toOption) (hfg : ∀ a, (f a).toOption = (g a).toOption) :
    (x >>= f).toOption = (y >>= g).toOption := by
  rcases toOption_cases h with ⟨a, rfl, rfl⟩ | ⟨e, e', rfl, rfl⟩
  · exact hfg a
  · rfl

/-- The same, when the result of one first step is that of the other under a map. -/
theorem toOption_bind_map {γ : Type} {x : Except ε γ} {y : Except ε α} {change : α → γ}
    {f : γ → Except ε β} {g : α → Except ε β} (h : x.toOption = y.toOption.map change)
    (hfg : ∀ a, y = .ok a → (f (change a)).toOption = (g a).toOption) :
    (x >>= f).toOption = (y >>= g).toOption := by
  have hmap : x.toOption = (y.map change).toOption := by
    rw [h]
    cases y <;> rfl
  have hsteps : (y.map change >>= f).toOption = (y >>= g).toOption := by
    cases y with
    | error e => rfl
    | ok a => exact hfg a rfl
  rw [← hsteps]
  exact toOption_bind_congr hmap fun _ => rfl

/-! ## Conditions on a step -/

/-- The result of a step, if it has one, is a `P`, and its fault, if it has one, is not `bad`. -/
def Meets (bad : ε) (P : α → Prop) : Except ε α → Prop
  | .ok a => P a
  | .error e => e ≠ bad

namespace Meets

variable {bad : ε} {P : α → Prop} {Q : β → Prop} {x : Except ε α}

/-- A sequence meets what its second step meets after any result of the first. -/
theorem bind {f : α → Except ε β} (hx : Meets bad P x)
    (hf : ∀ a, x = .ok a → P a → Meets bad Q (f a)) : Meets bad Q (x >>= f) := by
  cases x with
  | error e => exact hx
  | ok a => exact hf a rfl hx

/-- A loop meets what each of its rounds keeps. -/
theorem foldlM {f : α → β → Except ε α} (hf : ∀ a b, P a → Meets bad P (f a b)) {a : α} (h : P a)
    (l : List β) : Meets bad P (l.foldlM f a) := by
  induction l generalizing a with
  | nil => exact h
  | cons b l ih =>
      rw [List.foldlM_cons]
      exact (hf a b h).bind fun next _ hnext => ih hnext

/-- What is known of the results may be added to what is known of the faults. -/
theorem of_ok (hx : Meets bad P x) {R : α → Prop} (h : ∀ a, x = .ok a → R a) : Meets bad R x := by
  cases x with
  | error e => exact hx
  | ok a => exact h a rfl

theorem ok {a : α} (hx : Meets bad P x) (h : x = .ok a) : P a := by
  subst h
  exact hx

theorem ne_bad {e : ε} (hx : Meets bad P x) (h : x = .error e) : e ≠ bad := by
  subst h
  exact hx

end Meets

/-! ## Two steps compared -/

/-- Two steps agree: they fail with the same fault, or have results that are related. -/
def Agree (R : α → β → Prop) : Except ε α → Except ε β → Prop
  | .ok a, .ok b => R a b
  | .error e, .error e' => e = e'
  | _, _ => False

namespace Agree

variable {γ δ : Type} {R : α → β → Prop} {S : γ → δ → Prop} {x : Except ε α} {y : Except ε β}

/-- Sequences agree when their first steps agree and their second steps do after related results. -/
theorem bind {f : α → Except ε γ} {g : β → Except ε δ} (h : Agree R x y)
    (hfg : ∀ a b, R a b → Agree S (f a) (g b)) : Agree S (x >>= f) (y >>= g) := by
  cases x with
  | error e =>
      cases y with
      | error e' => exact h
      | ok b => exact absurd h id
  | ok a =>
      cases y with
      | error e' => exact absurd h id
      | ok b => exact hfg a b h

/-- Steps agree on equality when they are equal. -/
theorem eq_iff {y : Except ε α} : Agree Eq x y ↔ x = y := by
  cases x with
  | error e => cases y <;> simp [Agree]
  | ok a => cases y <;> simp [Agree]

end Agree

/-! ## Passes over a list -/

/-- A pass over one more element. -/
theorem mapM_cons (f : α → Except ε β) (a : α) (l : List α) :
    (a :: l).mapM f = f a >>= fun b => l.mapM f >>= fun bs => pure (b :: bs) :=
  List.mapM_cons

/-- A pass that succeeds has the result of every element, in order. -/
theorem mapM_eq_ok {f : α → Except ε β} {l : List α} {bs : List β} (h : l.mapM f = .ok bs) :
    bs.length = l.length ∧
      ∀ (i : Nat) (a : α), l[i]? = some a → ∃ b, f a = .ok b ∧ bs[i]? = some b := by
  induction l generalizing bs with
  | nil =>
      rw [List.mapM_nil, pure_eq_ok] at h
      subst h
      simp
  | cons a l ih =>
      rw [mapM_cons] at h
      obtain ⟨b, hb, h⟩ := bind_eq_ok.mp h
      obtain ⟨rest, hrest, h⟩ := bind_eq_ok.mp h
      rw [pure_eq_ok] at h
      subst h
      obtain ⟨hlength, hget⟩ := ih hrest
      refine ⟨by simp [hlength], ?_⟩
      intro i c hc
      cases i with
      | zero =>
          rw [List.getElem?_cons_zero, Option.some.injEq] at hc
          subst hc
          exact ⟨b, hb, rfl⟩
      | succ i => exact hget i c (by simpa using hc)

/-- A pass succeeds when every element does, with their results in order. -/
theorem mapM_of_getElem? {f : α → Except ε β} {l : List α} {bs : List β}
    (hlength : bs.length = l.length)
    (h : ∀ (i : Nat) (a : α), l[i]? = some a → ∃ b, f a = .ok b ∧ bs[i]? = some b) :
    l.mapM f = .ok bs := by
  induction l generalizing bs with
  | nil =>
      rw [List.length_eq_zero_iff.mp hlength]
      rfl
  | cons a l ih =>
      obtain ⟨b, hb, hfirst⟩ := h 0 a rfl
      obtain ⟨rest, rfl⟩ := List.head?_eq_some_iff.mp (List.head?_eq_getElem?.trans hfirst)
      rw [mapM_cons, hb, ih (by simpa using hlength) fun i c hc => h (i + 1) c hc]
      rfl

/-- A pass that fails has the fault of the first element that fails. -/
theorem mapM_eq_error {f : α → Except ε β} {l : List α} {e : ε} (h : l.mapM f = .error e) :
    ∃ (i : Nat) (a : α), l[i]? = some a ∧ f a = .error e ∧
      ∀ j < i, ∀ c, l[j]? = some c → ∃ b, f c = .ok b := by
  induction l with
  | nil => exact absurd h pure_ne_error
  | cons a l ih =>
      rw [mapM_cons] at h
      rcases bind_eq_error.mp h with h | ⟨b, hb, h⟩
      · exact ⟨0, a, rfl, h, fun j hj => absurd hj (Nat.not_lt_zero j)⟩
      · rcases bind_eq_error.mp h with h | ⟨rest, -, h⟩
        · obtain ⟨i, c, hc, hfault, hbefore⟩ := ih h
          refine ⟨i + 1, c, by simpa using hc, hfault, ?_⟩
          intro j hj d hd
          cases j with
          | zero =>
              rw [List.getElem?_cons_zero, Option.some.injEq] at hd
              subst hd
              exact ⟨b, hb⟩
          | succ j => exact hbefore j (by omega) d (by simpa using hd)
        · exact absurd h pure_ne_error

end Result

/-! ## Look-ups -/

/-- What a look-up finds is in the list. -/
theorem mem_of_lookup {α : Type} {l : List (Text × α)} {key : Text} {value : α}
    (h : l.lookup key = some value) : (key, value) ∈ l := by
  obtain ⟨before, after, rfl, -⟩ := List.lookup_eq_some_iff.mp h
  simp

/-- Where keys are distinct, a look-up finds what goes with the key. -/
theorem lookup_of_mem {α : Type} {l : List (Text × α)} {key : Text} {value : α}
    (hdistinct : (l.map Prod.fst).Nodup) (h : (key, value) ∈ l) : l.lookup key = some value := by
  induction l with
  | nil => cases h
  | cons entry l ih =>
      obtain ⟨hnew, hdistinct⟩ := List.nodup_cons.mp hdistinct
      rcases List.mem_cons.mp h with rfl | h
      · exact List.lookup_cons_self
      · have hne : key ≠ entry.1 := by
          rintro rfl
          exact hnew (List.mem_map.mpr ⟨_, h, rfl⟩)
        rw [List.lookup_cons, beq_eq_false_iff_ne.mpr hne]
        exact ih hdistinct h

/-- A look-up finds nothing when the key is not in the list. -/
theorem lookup_eq_none_iff_not_mem {α : Type} {l : List (Text × α)} {key : Text} :
    l.lookup key = none ↔ key ∉ l.map Prod.fst := by
  rw [List.lookup_eq_none_iff, List.mem_map]
  constructor
  · rintro h ⟨entry, hentry, rfl⟩
    simpa using h entry hentry
  · intro h entry hentry
    rw [bne_iff_ne]
    rintro rfl
    exact h ⟨entry, hentry, rfl⟩

end RiscAsm
