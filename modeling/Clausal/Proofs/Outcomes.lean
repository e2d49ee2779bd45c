/-!
# Outcomes of steps in turn
-/

namespace Clausal

variable {ε α β : Type}

/-- Steps in turn succeed when each does. -/
theorem bind_eq_ok {x : Except ε α} {f : α → Except ε β} {b : β} :
    (x >>= f) = .ok b ↔ ∃ a, x = .ok a ∧ f a = .ok b := by
  cases x with
  | error e => exact ⟨nofun, fun ⟨_, h, _⟩ => nomatch h⟩
  | ok a => exact ⟨fun h => ⟨a, rfl, h⟩, fun ⟨_, h, eq⟩ => Except.ok.inj h ▸ eq⟩

/-- A check and a step succeed when both do. -/
theorem check_bind_eq_ok {x : Except ε Unit} {f : Unit → Except ε β} {b : β} :
    (x >>= f) = .ok b ↔ x = .ok () ∧ f () = .ok b :=
  bind_eq_ok.trans ⟨fun ⟨_, h⟩ => h, fun h => ⟨(), h⟩⟩

theorem ok_bind {a : α} {f : α → Except ε β} : (Except.ok a >>= f) = f a := rfl

theorem mapM_map_eq_ok {γ : Type} {f : β → Except ε γ} {g : α → β} {h : α → γ} {xs : List α}
    (each : ∀ x ∈ xs, f (g x) = .ok (h x)) : (xs.map g).mapM f = .ok (xs.map h) := by
  induction xs with
  | nil => rfl
  | cons x rest ih =>
    rw [List.map_cons, List.mapM_cons, each x List.mem_cons_self,
      ih fun y hy => each y (List.mem_cons_of_mem _ hy)]
    rfl

/-- Steps in turn whose results are known. -/
theorem mapM_eq_ok_map {f : α → Except ε β} {g : α → β} {xs : List α}
    (each : ∀ x ∈ xs, f x = .ok (g x)) : xs.mapM f = .ok (xs.map g) := by
  have all := mapM_map_eq_ok (g := id) each
  rwa [List.map_id] at all

theorem map_eq_ok {x : Except ε α} {f : α → β} {b : β} :
    f <$> x = .ok b ↔ ∃ a, x = .ok a ∧ f a = b := by
  cases x with
  | error e => exact ⟨nofun, fun ⟨_, h, _⟩ => nomatch h⟩
  | ok a =>
    exact ⟨fun h => ⟨a, rfl, Except.ok.inj h⟩, fun ⟨_, h, eq⟩ => Except.ok.inj h ▸ congrArg _ eq⟩

theorem mapError_eq_ok {δ : Type} {x : Except δ α} {f : δ → ε} {a : α} :
    x.mapError f = .ok a ↔ x = .ok a := by
  cases x with
  | error e => exact ⟨nofun, nofun⟩
  | ok b => exact ⟨fun h => congrArg _ (Except.ok.inj h), fun h => congrArg _ (Except.ok.inj h)⟩

theorem mapM_eq_map {γ : Type} {f : α → Except ε γ} {g : α → Except ε β} {h : β → γ}
    (each : ∀ x, f x = h <$> g x) (xs : List α) : xs.mapM f = List.map h <$> xs.mapM g := by
  induction xs with
  | nil => rfl
  | cons x rest ih =>
    rw [List.mapM_cons, List.mapM_cons, ih, each]
    cases g x with
    | error e => rfl
    | ok y => cases rest.mapM g <;> rfl

theorem forM_eq_ok {f : α → Except ε Unit} {xs : List α} (each : ∀ x ∈ xs, f x = .ok ()) :
    xs.forM f = .ok () := by
  induction xs with
  | nil => rfl
  | cons x rest ih =>
    rw [List.forM, each x List.mem_cons_self, ok_bind]
    exact ih fun y hy => each y (List.mem_cons_of_mem _ hy)

theorem forall_of_mapM {f : α → Except ε β} {P : β → Prop} {xs : List α} {ys : List β}
    (h : xs.mapM f = .ok ys) (each : ∀ x y, f x = .ok y → P y) : ∀ y ∈ ys, P y := by
  induction xs generalizing ys with
  | nil =>
    cases h
    exact fun _ hy => absurd hy List.not_mem_nil
  | cons x rest ih =>
    rw [List.mapM_cons] at h
    obtain ⟨y, first, h⟩ := bind_eq_ok.1 h
    obtain ⟨others, rest, h⟩ := bind_eq_ok.1 h
    cases h
    exact List.forall_mem_cons.2 ⟨each x y first, ih rest⟩

theorem toOption_eq_of_iff {x y : Except ε α} (h : ∀ a, x = .ok a ↔ y = .ok a) :
    x.toOption = y.toOption := by
  have some_iff {z : Except ε α} {a : α} : z.toOption = some a ↔ z = .ok a := by
    cases z <;> simp [Except.toOption]
  apply Option.ext
  intro a
  rw [some_iff, some_iff, h]

theorem mapM_cons_eq_ok {f : α → Except ε β} {x : α} {xs : List α} {ys : List β} :
    (x :: xs).mapM f = .ok ys ↔ ∃ y zs, f x = .ok y ∧ xs.mapM f = .ok zs ∧ y :: zs = ys := by
  rw [List.mapM_cons, bind_eq_ok]
  refine exists_congr fun y => ?_
  rw [bind_eq_ok]
  constructor
  · rintro ⟨first, zs, rest, h⟩
    exact ⟨zs, first, rest, Except.ok.inj h⟩
  · rintro ⟨zs, first, rest, h⟩
    exact ⟨first, zs, rest, congrArg _ h⟩

theorem exists_of_mem_mapM {f : α → Except ε β} {xs : List α} {ys : List β}
    (h : xs.mapM f = .ok ys) : ∀ y ∈ ys, ∃ x ∈ xs, f x = .ok y := by
  induction xs generalizing ys with
  | nil =>
    cases h
    exact fun _ hy => absurd hy List.not_mem_nil
  | cons x rest ih =>
    obtain ⟨y, zs, first, others, rfl⟩ := mapM_cons_eq_ok.1 h
    refine List.forall_mem_cons.2 ⟨⟨x, List.mem_cons_self, first⟩, fun z hz => ?_⟩
    obtain ⟨x', hx', eq⟩ := ih others z hz
    exact ⟨x', List.mem_cons_of_mem _ hx', eq⟩

/-- Of checks in turn, the first one that fails decides. -/
theorem mapM_eq_match {p : α → Prop} [DecidablePred p] {f : α → Except ε β} {e : α → ε} {g : α → β}
    (each : ∀ x, f x = if p x then .error (e x) else .ok (g x)) (xs : List α) :
    xs.mapM f = match xs.find? (p ·) with
      | some x => .error (e x)
      | none => .ok (xs.map g) := by
  induction xs with
  | nil => rfl
  | cons x rest ih =>
    rw [List.mapM_cons, ih, each, List.find?_cons]
    by_cases fails : p x
    · simp only [fails, decide_true]
      rfl
    · simp only [fails, decide_false]
      cases rest.find? (p ·) <;> rfl

theorem exists_of_mapM {f : α → Except ε β} {xs : List α} {ys : List β}
    (h : xs.mapM f = .ok ys) : ∀ x ∈ xs, ∃ y, f x = .ok y := by
  induction xs generalizing ys with
  | nil => exact fun _ hx => absurd hx List.not_mem_nil
  | cons x rest ih =>
    obtain ⟨y, zs, first, others, -⟩ := mapM_cons_eq_ok.1 h
    exact List.forall_mem_cons.2 ⟨⟨y, first⟩, ih others⟩

/-- Steps in turn succeed exactly when each of them does. -/
theorem exists_mapM_iff {f : α → Except ε β} {xs : List α} :
    (∃ ys, xs.mapM f = .ok ys) ↔ ∀ x ∈ xs, ∃ y, f x = .ok y := by
  constructor
  · rintro ⟨ys, h⟩
    exact exists_of_mapM h
  · intro each
    induction xs with
    | nil => exact ⟨[], rfl⟩
    | cons x rest ih =>
      obtain ⟨⟨y, first⟩, later⟩ := List.forall_mem_cons.1 each
      obtain ⟨ys, others⟩ := ih later
      exact ⟨y :: ys, mapM_cons_eq_ok.2 ⟨y, ys, first, others, rfl⟩⟩

theorem mapM_append_eq_ok {f : α → Except ε β} {xs ys : List α} {as bs : List β}
    (hx : xs.mapM f = .ok as) (hy : ys.mapM f = .ok bs) : (xs ++ ys).mapM f = .ok (as ++ bs) := by
  rw [List.mapM_append, hx, hy]
  rfl

theorem length_of_mapM {f : α → Except ε β} {xs : List α} {ys : List β} (h : xs.mapM f = .ok ys) :
    ys.length = xs.length := by
  induction xs generalizing ys with
  | nil =>
    cases h
    rfl
  | cons x rest ih =>
    obtain ⟨y, zs, -, others, rfl⟩ := mapM_cons_eq_ok.1 h
    rw [List.length_cons, List.length_cons, ih others]

/-- Reordered steps give the same results, reordered. -/
theorem exists_mapM_of_perm {f : α → Except ε β} {xs xs' : List α} (perm : xs.Perm xs') :
    ∀ {ys}, xs.mapM f = .ok ys → ∃ ys', xs'.mapM f = .ok ys' ∧ ys.Perm ys' := by
  induction perm with
  | nil => exact fun h => ⟨_, h, .refl _⟩
  | cons x _ ih =>
    intro ys h
    obtain ⟨y, zs, first, rest, rfl⟩ := mapM_cons_eq_ok.1 h
    obtain ⟨zs', rest', perm⟩ := ih rest
    exact ⟨_, mapM_cons_eq_ok.2 ⟨y, zs', first, rest', rfl⟩, perm.cons y⟩
  | swap x x' xs =>
    intro ys h
    obtain ⟨y', _, first, others, rfl⟩ := mapM_cons_eq_ok.1 h
    obtain ⟨y, zs, second, rest, rfl⟩ := mapM_cons_eq_ok.1 others
    have later : (x' :: xs).mapM f = .ok (y' :: zs) := mapM_cons_eq_ok.2 ⟨y', zs, first, rest, rfl⟩
    exact ⟨_, mapM_cons_eq_ok.2 ⟨y, _, second, later, rfl⟩, .swap y y' zs⟩
  | trans _ _ ih ih' =>
    intro ys h
    obtain ⟨ys', h', perm⟩ := ih h
    obtain ⟨ys'', h'', perm'⟩ := ih' h'
    exact ⟨ys'', h'', perm.trans perm'⟩

/-! ### Errors -/

/-- If an outcome is an error, the error has a property. -/
def FailsOnly (P : ε → Prop) (x : Except ε α) : Prop := ∀ e, x = .error e → P e

namespace FailsOnly

variable {P : ε → Prop}

theorem ok {a : α} : FailsOnly P (.ok a) := nofun

theorem error {e : ε} (h : P e) : FailsOnly P (.error e : Except ε α) := by
  rintro _ ⟨⟩
  exact h

theorem bind {x : Except ε α} {f : α → Except ε β} (first : FailsOnly P x)
    (next : ∀ a, x = .ok a → FailsOnly P (f a)) : FailsOnly P (x >>= f) := by
  cases x with
  | error e => exact .error (first e rfl)
  | ok a => exact next a rfl

/-- A step whose result is used for something that cannot fail. -/
theorem bind_ok {x : Except ε α} {f : α → β} (h : FailsOnly P x) :
    FailsOnly P (x >>= fun a => .ok (f a)) :=
  h.bind fun _ _ => .ok

theorem mapError {δ : Type} {x : Except δ α} {f : δ → ε} (each : ∀ e, P (f e)) :
    FailsOnly P (x.mapError f) := by
  cases x with
  | error e => exact .error (each e)
  | ok a => exact .ok

theorem mapM {f : α → Except ε β} {xs : List α} (each : ∀ x ∈ xs, FailsOnly P (f x)) :
    FailsOnly P (xs.mapM f) := by
  induction xs with
  | nil => exact .ok
  | cons x rest ih =>
    rw [List.mapM_cons]
    refine (each x List.mem_cons_self).bind fun y _ => bind_ok (ih fun z hz => ?_)
    exact each z (List.mem_cons_of_mem _ hz)

theorem forM {f : α → Except ε Unit} {xs : List α} (each : ∀ x ∈ xs, FailsOnly P (f x)) :
    FailsOnly P (xs.forM f) := by
  induction xs with
  | nil => exact .ok
  | cons x rest ih =>
    rw [List.forM]
    refine (each x List.mem_cons_self).bind fun _ _ => ih fun z hz => ?_
    exact each z (List.mem_cons_of_mem _ hz)

end FailsOnly

end Clausal
