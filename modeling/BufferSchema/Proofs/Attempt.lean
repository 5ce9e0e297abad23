import Mathlib.Data.List.Forall2

/-!
# Attempts

Resolving a document and emitting a header are attempts: they give a result or stop at the first
failure. This file says when an attempt that is put together from others succeeds, what it gives
and where its failure comes from. Later files take attempts apart through these statements alone.

Success is kept apart from the result, because most emitters succeed or fail by a condition that
does not depend on the texts they put together.
-/

namespace BufferSchema

variable {ε α β γ : Type}

/-- Whether an attempt gives a result. -/
def Succeeds (x : Except ε α) : Prop := ∃ a, x = .ok a

namespace Attempt

/-! ## Results -/

theorem bind_eq_ok {x : Except ε α} {f : α → Except ε β} {b : β} :
    x >>= f = .ok b ↔ ∃ a, x = .ok a ∧ f a = .ok b := by
  cases x with
  | error e => exact ⟨fun h ↦ (nomatch h), fun ⟨_, h, _⟩ ↦ (nomatch h)⟩
  | ok a =>
    refine ⟨fun h ↦ ⟨a, rfl, h⟩, ?_⟩
    rintro ⟨a', ha, h⟩
    cases ha
    exact h

theorem bind_eq_error {x : Except ε α} {f : α → Except ε β} {e : ε} :
    x >>= f = .error e ↔ x = .error e ∨ ∃ a, x = .ok a ∧ f a = .error e := by
  cases x with
  | error e' =>
    refine ⟨fun h ↦ Or.inl (congrArg _ (Except.error.inj h)), ?_⟩
    rintro (h | ⟨a, h, -⟩)
    · exact congrArg _ (Except.error.inj h)
    · exact nomatch h
  | ok a =>
    refine ⟨fun h ↦ Or.inr ⟨a, rfl, h⟩, ?_⟩
    rintro (h | ⟨a', ha, h⟩)
    · exact nomatch h
    · cases ha
      exact h

@[simp] theorem pure_eq_ok {a b : α} : (pure a : Except ε α) = .ok b ↔ a = b :=
  ⟨fun h ↦ Except.ok.inj h, fun h ↦ congrArg _ h⟩

@[simp] theorem pure_ne_error {a : α} {e : ε} : (pure a : Except ε α) ≠ .error e :=
  fun h ↦ nomatch h

@[simp] theorem throw_ne_ok {e : ε} {a : α} : (throw e : Except ε α) ≠ .ok a :=
  fun h ↦ nomatch h

@[simp] theorem throw_eq_error {e e' : ε} : (throw e : Except ε α) = .error e' ↔ e = e' :=
  ⟨fun h ↦ Except.error.inj h, fun h ↦ congrArg _ h⟩

/-- A step that depends on a condition, with the same steps behind it either way. -/
theorem ite_bind_eq_ok {c : Prop} [Decidable c] {x y : Except ε α} {f : α → Except ε β} {b : β} :
    (if c then x >>= f else y >>= f) = .ok b ↔ ∃ a, (if c then x else y) = .ok a ∧ f a = .ok b := by
  by_cases h : c
  · rw [if_pos h, if_pos h, bind_eq_ok]
  · rw [if_neg h, if_neg h, bind_eq_ok]

theorem map_eq_ok {x : Except ε α} {f : α → β} {b : β} :
    f <$> x = .ok b ↔ ∃ a, x = .ok a ∧ f a = b := by
  rw [← bind_pure_comp, bind_eq_ok]
  simp

/-! ## Failures in other words -/

section mapError

variable {ε' : Type} {x : Except ε α} {f : ε → ε'}

theorem mapError_eq_ok {a : α} : x.mapError f = .ok a ↔ x = .ok a := by
  cases x with
  | error e => exact ⟨fun h ↦ (nomatch h), fun h ↦ (nomatch h)⟩
  | ok b => exact ⟨fun h ↦ congrArg _ (Except.ok.inj h), fun h ↦ congrArg _ (Except.ok.inj h)⟩

theorem mapError_eq_error {e' : ε'} : x.mapError f = .error e' ↔ ∃ e, x = .error e ∧ f e = e' := by
  cases x with
  | ok b => exact ⟨fun h ↦ (nomatch h), fun ⟨_, h, _⟩ ↦ (nomatch h)⟩
  | error e =>
    refine ⟨fun h ↦ ⟨e, rfl, Except.error.inj h⟩, ?_⟩
    rintro ⟨e, h, rfl⟩
    rw [Except.error.inj h]
    rfl

end mapError

/-! ## Success -/

theorem succeeds_or_fails (x : Except ε α) : Succeeds x ∨ ∃ e, x = .error e := by
  cases x with
  | error e => exact Or.inr ⟨e, rfl⟩
  | ok a => exact Or.inl ⟨a, rfl⟩

theorem not_succeeds_iff {x : Except ε α} : ¬ Succeeds x ↔ ∃ e, x = .error e := by
  refine ⟨(succeeds_or_fails x).resolve_left, ?_⟩
  rintro ⟨e, rfl⟩ ⟨a, h⟩
  exact nomatch h

theorem ne_error_of_succeeds {x : Except ε α} (h : Succeeds x) (e : ε) : x ≠ .error e :=
  fun he ↦ not_succeeds_iff.mpr ⟨e, he⟩ h

/-- A result that passes a test. -/
theorem exists_eq_ok_of_any {x : Except ε α} {p : α → Bool} (h : x.toOption.any p = true) :
    ∃ a, x = .ok a ∧ p a = true := by
  cases x with
  | error e => exact nomatch h
  | ok a => exact ⟨a, rfl, h⟩

@[simp] theorem succeeds_pure (a : α) : Succeeds (pure a : Except ε α) := ⟨a, rfl⟩

@[simp] theorem not_succeeds_throw (e : ε) : ¬ Succeeds (throw e : Except ε α) :=
  fun ⟨_, h⟩ ↦ throw_ne_ok h

@[simp] theorem succeeds_map {x : Except ε α} {f : α → β} : Succeeds (f <$> x) ↔ Succeeds x := by
  constructor
  · rintro ⟨b, h⟩
    obtain ⟨a, ha, -⟩ := map_eq_ok.mp h
    exact ⟨a, ha⟩
  · rintro ⟨a, rfl⟩
    exact ⟨f a, rfl⟩

theorem succeeds_bind {x : Except ε α} {f : α → Except ε β} :
    Succeeds (x >>= f) ↔ ∃ a, x = .ok a ∧ Succeeds (f a) := by
  constructor
  · rintro ⟨b, h⟩
    obtain ⟨a, ha, hb⟩ := bind_eq_ok.mp h
    exact ⟨a, ha, b, hb⟩
  · rintro ⟨a, ha, b, hb⟩
    exact ⟨b, bind_eq_ok.mpr ⟨a, ha, hb⟩⟩

theorem succeeds_of_bind {x : Except ε α} {f : α → Except ε β} (h : Succeeds (x >>= f)) :
    Succeeds x := by
  obtain ⟨a, ha, -⟩ := succeeds_bind.mp h
  exact ⟨a, ha⟩

theorem succeeds_bind_of_forall {x : Except ε α} {f : α → Except ε β} (hx : Succeeds x)
    (hf : ∀ a, Succeeds (f a)) : Succeeds (x >>= f) := by
  obtain ⟨a, ha⟩ := hx
  exact succeeds_bind.mpr ⟨a, ha, hf a⟩

theorem succeeds_ite_bind {c : Prop} [Decidable c] {x y : Except ε α} {f : α → Except ε β}
    (hx : c → Succeeds x) (hy : ¬ c → Succeeds y) (hf : ∀ a, Succeeds (f a)) :
    Succeeds (if c then x >>= f else y >>= f) := by
  by_cases h : c
  · rw [if_pos h]
    exact succeeds_bind_of_forall (hx h) hf
  · rw [if_neg h]
    exact succeeds_bind_of_forall (hy h) hf

theorem exists_succeeds_of_ite_bind {c : Prop} [Decidable c] {x y : Except ε α}
    {f : α → Except ε β} (h : Succeeds (if c then x >>= f else y >>= f)) :
    ∃ a, Succeeds (f a) := by
  split at h
  · obtain ⟨a, -, h⟩ := succeeds_bind.mp h
    exact ⟨a, h⟩
  · obtain ⟨a, -, h⟩ := succeeds_bind.mp h
    exact ⟨a, h⟩

/-- Two steps of which the second succeeds by a condition of its own. -/
theorem succeeds_bind_iff_and {x : Except ε α} {f : α → Except ε β} {p : Prop}
    (h : ∀ a, x = .ok a → (Succeeds (f a) ↔ p)) :
    Succeeds (x >>= f) ↔ Succeeds x ∧ p := by
  rw [succeeds_bind]
  constructor
  · rintro ⟨a, ha, hf⟩
    exact ⟨⟨a, ha⟩, (h a ha).mp hf⟩
  · rintro ⟨⟨a, ha⟩, hp⟩
    exact ⟨a, ha, (h a ha).mpr hp⟩

@[simp] theorem succeeds_bind_pure {x : Except ε α} {f : α → β} :
    Succeeds (x >>= fun a ↦ pure (f a)) ↔ Succeeds x := by
  rw [bind_pure_comp, succeeds_map]

/-! ## Lists side by side -/

section forall₂

variable {R : α → β → Prop} {xs : List α} {ys : List β}

theorem exists_mem_left_of_forall₂ (h : List.Forall₂ R xs ys) {y : β} (hy : y ∈ ys) :
    ∃ x ∈ xs, R x y := by
  induction h with
  | nil => exact absurd hy List.not_mem_nil
  | @cons x y' xs ys hxy _ ih =>
    rcases List.mem_cons.mp hy with rfl | hy
    · exact ⟨x, List.mem_cons_self, hxy⟩
    · obtain ⟨x', hx', hxy'⟩ := ih hy
      exact ⟨x', List.mem_cons_of_mem x hx', hxy'⟩

theorem exists_mem_right_of_forall₂ (h : List.Forall₂ R xs ys) {x : α} (hx : x ∈ xs) :
    ∃ y ∈ ys, R x y :=
  exists_mem_left_of_forall₂ (List.Forall₂.flip h) hx

end forall₂

/-! ## Lists of attempts -/

theorem mapM_eq_ok {f : α → Except ε β} {xs : List α} {ys : List β} :
    xs.mapM f = .ok ys ↔ List.Forall₂ (fun x y ↦ f x = .ok y) xs ys := by
  induction xs generalizing ys with
  | nil =>
    rw [List.mapM_nil, pure_eq_ok, List.forall₂_nil_left_iff]
    exact eq_comm
  | cons x xs ih =>
    rw [List.mapM_cons, bind_eq_ok, List.forall₂_cons_left_iff]
    constructor
    · rintro ⟨y, hy, h⟩
      obtain ⟨rest, hrest, h⟩ := bind_eq_ok.mp h
      exact ⟨y, rest, hy, ih.mp hrest, (pure_eq_ok.mp h).symm⟩
    · rintro ⟨y, rest, hy, hrest, rfl⟩
      exact ⟨y, hy, bind_eq_ok.mpr ⟨rest, ih.mpr hrest, rfl⟩⟩

theorem isEmpty_eq_of_mapM_eq_ok {f : α → Except ε β} {xs : List α} {ys : List β}
    (h : xs.mapM f = .ok ys) : ys.isEmpty = xs.isEmpty := by
  cases mapM_eq_ok.mp h <;> rfl

/-- Elements and results that are changed in ways that fit together. -/
theorem mapM_map_eq_ok {α' β' : Type} {f : α → Except ε β} {f' : α' → Except ε β'} {g : α → α'}
    {g' : β → β'} {xs : List α} {ys : List β} (h : xs.mapM f = .ok ys)
    (hf : ∀ x y, f x = .ok y → f' (g x) = .ok (g' y)) : (xs.map g).mapM f' = .ok (ys.map g') := by
  rw [mapM_eq_ok, List.forall₂_map_left_iff, List.forall₂_map_right_iff]
  exact (mapM_eq_ok.mp h).imp hf

/-- What a result keeps of its element can be read off either list. -/
theorem flatMap_eq_of_mapM_eq_ok {f : α → Except ε β} {xs : List α} {ys : List β}
    (h : xs.mapM f = .ok ys) {left : α → List γ} {right : β → List γ}
    (hf : ∀ x y, f x = .ok y → left x = right y) : xs.flatMap left = ys.flatMap right := by
  have hblocks := mapM_eq_ok.mp h
  clear h
  induction hblocks with
  | nil => rfl
  | cons hxy _ ih => rw [List.flatMap_cons, List.flatMap_cons, hf _ _ hxy, ih]

/-- A result that is known in front of those that are still to come. -/
theorem map_mapM_cons {f : α → Except ε β} {g : List β → γ} {x : α} {y : β} (h : f x = .ok y)
    (xs : List α) : g <$> (x :: xs).mapM f = (fun ys ↦ g (y :: ys)) <$> xs.mapM f := by
  rw [List.mapM_cons, h]
  cases xs.mapM f <;> rfl

theorem exists_mem_of_mapM_eq_error {f : α → Except ε β} {xs : List α} {e : ε}
    (h : xs.mapM f = .error e) : ∃ x ∈ xs, f x = .error e := by
  induction xs with
  | nil => exact absurd h (by rw [List.mapM_nil]; exact pure_ne_error)
  | cons x xs ih =>
    rw [List.mapM_cons, bind_eq_error] at h
    rcases h with h | ⟨y, -, h⟩
    · exact ⟨x, List.mem_cons_self, h⟩
    · rcases bind_eq_error.mp h with h | ⟨rest, -, h⟩
      · obtain ⟨z, hz, hfz⟩ := ih h
        exact ⟨z, List.mem_cons_of_mem x hz, hfz⟩
      · exact absurd h pure_ne_error

@[simp] theorem succeeds_mapM {f : α → Except ε β} {xs : List α} :
    Succeeds (xs.mapM f) ↔ ∀ x ∈ xs, Succeeds (f x) := by
  induction xs with
  | nil => simp
  | cons x xs ih =>
    rw [List.mapM_cons, List.forall_mem_cons, ← ih]
    exact succeeds_bind_iff_and fun y _ ↦ succeeds_bind_pure

theorem forM_eq_ok {f : α → Except ε Unit} {xs : List α} :
    xs.forM f = .ok () ↔ ∀ x ∈ xs, f x = .ok () := by
  induction xs with
  | nil => simp
  | cons x xs ih =>
    rw [List.forM_eq_forM, List.forM_cons, bind_eq_ok, List.forall_mem_cons, ← ih]
    exact ⟨fun ⟨_, hx, h⟩ ↦ ⟨hx, h⟩, fun ⟨hx, h⟩ ↦ ⟨(), hx, h⟩⟩

theorem exists_mem_of_forM_eq_error {f : α → Except ε Unit} {xs : List α} {e : ε}
    (h : xs.forM f = .error e) : ∃ x ∈ xs, f x = .error e := by
  induction xs with
  | nil => exact absurd h pure_ne_error
  | cons x xs ih =>
    rw [List.forM_eq_forM, List.forM_cons, bind_eq_error] at h
    rcases h with h | ⟨_, -, h⟩
    · exact ⟨x, List.mem_cons_self, h⟩
    · obtain ⟨z, hz, hfz⟩ := ih h
      exact ⟨z, List.mem_cons_of_mem x hz, hfz⟩

end Attempt

end BufferSchema
