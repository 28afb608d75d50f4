import Mathlib.Data.List.Forall2

/-!
Text and exceptions of a Python program, as values.

A `str` is its list of code points: lone surrogates are code points a Python
string may hold and a Lean `Char` may not. A function that may raise returns
in `Except Exn`; the handlers below are `try ... except (classes)` with the
class test of `isinstance`. Only subclasses of `Exception` are values of `Exn`:
cancellation is not one of them and belongs to the task that is cancelled.
-/
namespace Python

abbrev Text := List Nat

/-- Named, so that deciding a membership does not carry its proof along. -/
instance : LawfulBEq Text := inferInstance

/-- The code points of a literal of the source. -/
def text (s : String) : Text := s.toList.map Char.toNat

inductive ExnKind
  | valueError
  | jsonDecodeError
  | validationError
  | keyError
  | indexError
  | typeError
  | attributeError
  | overflowError
  | invalidOperation
  | runtimeError
  | recursionError
  | osError
  | timeoutError
  | named (name : Text)
deriving DecidableEq

namespace ExnKind

/-- The base class, where it is not `Exception` itself or a class no handler names. -/
def base : ExnKind → Option ExnKind
  | jsonDecodeError | validationError => some valueError
  | recursionError => some runtimeError
  | timeoutError => some osError
  | _ => none

/-- `issubclass`; no chain of named base classes here is longer than one link. -/
def isA (kind cls : ExnKind) : Bool :=
  kind = cls || kind.base = some cls

/-- `__name__` of the class. -/
def name : ExnKind → Text
  | valueError => text "ValueError"
  | jsonDecodeError => text "JSONDecodeError"
  | validationError => text "ValidationError"
  | keyError => text "KeyError"
  | indexError => text "IndexError"
  | typeError => text "TypeError"
  | attributeError => text "AttributeError"
  | overflowError => text "OverflowError"
  | invalidOperation => text "InvalidOperation"
  | runtimeError => text "RuntimeError"
  | recursionError => text "RecursionError"
  | osError => text "OSError"
  | timeoutError => text "TimeoutError"
  | named n => n

end ExnKind

/-- A raised exception: its class and `str(exc)`. The text is left empty where
no handler of the program reads it. -/
structure Exn where
  kind : ExnKind
  message : Text := []
deriving DecidableEq

/-- `isinstance(exc, classes)` for a tuple of classes. -/
def Exn.isInstance (e : Exn) (classes : List ExnKind) : Bool :=
  classes.any e.kind.isA

theorem Exn.isInstance_of_mem {e : Exn} {kind : ExnKind} (classes : List ExnKind)
    (h : e.kind = kind) (hk : kind ∈ classes) : e.isInstance classes = true :=
  List.any_eq_true.mpr ⟨kind, hk, by simp [h, ExnKind.isA]⟩

theorem Exn.isInstance_of_subset {e : Exn} {classes more : List ExnKind}
    (h : e.isInstance classes = true) (hs : classes ⊆ more) : e.isInstance more = true := by
  obtain ⟨kind, hk, hi⟩ := List.any_eq_true.mp h
  exact List.any_eq_true.mpr ⟨kind, hs hk, hi⟩

def raise {α : Type*} (kind : ExnKind) (message : Text := []) : Except Exn α :=
  .error ⟨kind, message⟩

/-- `try: x  except classes as exc: handler(exc)`. -/
def tryExcept {α : Type*} (x : Except Exn α) (classes : List ExnKind)
    (handler : Exn → Except Exn α) : Except Exn α :=
  match x with
  | .ok a => .ok a
  | .error e => if e.isInstance classes then handler e else .error e

@[simp] theorem tryExcept_ok {α : Type*} (a : α) (classes : List ExnKind)
    (handler : Exn → Except Exn α) :
    tryExcept (.ok a) classes handler = .ok a := rfl

theorem tryExcept_caught {α : Type*} {e : Exn} {classes : List ExnKind}
    (handler : Exn → Except Exn α) (h : e.isInstance classes = true) :
    tryExcept (.error e) classes handler = handler e := by
  simp [tryExcept, h]

theorem tryExcept_uncaught {α : Type*} {e : Exn} {classes : List ExnKind}
    (handler : Exn → Except Exn α) (h : e.isInstance classes = false) :
    tryExcept (.error e) classes handler = .error e := by
  simp [tryExcept, h]

theorem ok_bind {ε : Type*} {α β : Type} (a : α) (f : α → Except ε β) :
    (Except.ok a >>= f) = f a := rfl

theorem bind_eq_ok_iff {ε : Type*} {α β : Type} {x : Except ε α} {f : α → Except ε β} {b : β} :
    x >>= f = .ok b ↔ ∃ a, x = .ok a ∧ f a = .ok b := by
  cases x with
  | ok a => exact ⟨fun h => ⟨a, rfl, h⟩, fun ⟨a', h, hf⟩ => Except.ok.inj h ▸ hf⟩
  | error e => exact ⟨nofun, fun ⟨_, h, _⟩ => nomatch h⟩

theorem mapError_eq_ok_iff {ε η α : Type*} {x : Except ε α} {f : ε → η} {a : α} :
    x.mapError f = .ok a ↔ x = .ok a := by
  cases x <;> simp [Except.mapError]

theorem map_eq_ok_iff {ε : Type*} {α β : Type} {x : Except ε α} {f : α → β} {b : β} :
    f <$> x = .ok b ↔ ∃ a, x = .ok a ∧ f a = b := by
  cases x with
  | ok a =>
      refine ⟨fun h => ⟨a, rfl, Except.ok.inj h⟩, ?_⟩
      rintro ⟨a', h, rfl⟩
      exact congrArg _ (congrArg f (Except.ok.inj h))
  | error e => exact ⟨nofun, fun ⟨_, h, _⟩ => nomatch h⟩

/-- A traversal that returns, element by element. -/
theorem mapM_eq_ok_iff {ε : Type*} {α β : Type} {f : α → Except ε β} {xs : List α} {ys : List β} :
    xs.mapM f = .ok ys ↔ List.Forall₂ (fun x y => f x = .ok y) xs ys := by
  induction xs generalizing ys with
  | nil =>
      rw [List.forall₂_nil_left_iff]
      exact ⟨fun h => (Except.ok.inj h).symm, fun h => h ▸ rfl⟩
  | cons x xs ih =>
      rw [List.mapM_cons, List.forall₂_cons_left_iff, bind_eq_ok_iff]
      constructor
      · rintro ⟨y, hx, h⟩
        obtain ⟨ys', hxs, h⟩ := bind_eq_ok_iff.mp h
        exact ⟨y, ys', hx, ih.mp hxs, (Except.ok.inj h).symm⟩
      · rintro ⟨y, ys', hx, hxs, rfl⟩
        exact ⟨y, hx, bind_eq_ok_iff.mpr ⟨ys', ih.mpr hxs, rfl⟩⟩

/-- Every result of a traversal is that of an element. -/
theorem mem_of_mapM {ε : Type*} {α β : Type} {f : α → Except ε β} {xs : List α} {ys : List β}
    (h : xs.mapM f = .ok ys) {y : β} (hy : y ∈ ys) : ∃ x ∈ xs, f x = .ok y := by
  have hall := mapM_eq_ok_iff.mp h
  clear h
  induction hall with
  | nil => cases hy
  | cons hx hxs ih =>
      rcases List.mem_cons.mp hy with rfl | hy
      · exact ⟨_, List.mem_cons_self, hx⟩
      · obtain ⟨x, hx, hfx⟩ := ih hy
        exact ⟨x, List.mem_cons_of_mem _ hx, hfx⟩

/-- A traversal that returns has returned at every element. -/
theorem of_mapM {ε : Type*} {α β : Type} {f : α → Except ε β} {xs : List α} {ys : List β}
    (h : xs.mapM f = .ok ys) {x : α} (hx : x ∈ xs) : ∃ y ∈ ys, f x = .ok y := by
  have hall := mapM_eq_ok_iff.mp h
  clear h
  induction hall with
  | nil => cases hx
  | cons hy hys ih =>
      rcases List.mem_cons.mp hx with rfl | hx
      · exact ⟨_, List.mem_cons_self, hy⟩
      · obtain ⟨y, hy, hfx⟩ := ih hx
        exact ⟨y, List.mem_cons_of_mem _ hy, hfx⟩

theorem mapM_ok {ε : Type*} {α β : Type} {f : α → Except ε β} {xs : List α}
    (h : ∀ x ∈ xs, ∃ y, f x = .ok y) : ∃ ys, xs.mapM f = .ok ys := by
  induction xs with
  | nil => exact ⟨[], rfl⟩
  | cons x xs ih =>
      obtain ⟨y, hx⟩ := h x List.mem_cons_self
      obtain ⟨ys, hxs⟩ := ih fun x' hx' => h x' (List.mem_cons_of_mem _ hx')
      refine ⟨y :: ys, ?_⟩
      rw [List.mapM_cons, hx, hxs]
      rfl

/-- What is said of every element and its result is said of the two lists. -/
theorem mapM_forall₂ {ε : Type*} {α β : Type} {f : α → Except ε β} {R : β → α → Prop} {xs : List α}
    (h : ∀ x ∈ xs, ∃ y, f x = .ok y ∧ R y x) : ∃ ys, xs.mapM f = .ok ys ∧ List.Forall₂ R ys xs := by
  induction xs with
  | nil => exact ⟨[], rfl, .nil⟩
  | cons x xs ih =>
      obtain ⟨y, hx, hy⟩ := h x List.mem_cons_self
      obtain ⟨ys, hxs, hys⟩ := ih fun x' hx' => h x' (List.mem_cons_of_mem _ hx')
      refine ⟨y :: ys, ?_, .cons hy hys⟩
      rw [List.mapM_cons, hx, hxs]
      rfl

/-- The error of a loop is that of one of its turns. -/
theorem error_of_mapM {ε : Type*} {α β : Type} {f : α → Except ε β} {xs : List α} {e : ε}
    (h : xs.mapM f = .error e) : ∃ x ∈ xs, f x = .error e := by
  induction xs with
  | nil => cases h
  | cons x xs ih =>
      rw [List.mapM_cons] at h
      cases hx : f x with
      | error e' =>
          rw [hx] at h
          cases h
          exact ⟨x, List.mem_cons_self, hx⟩
      | ok y =>
          rw [hx, ok_bind] at h
          cases hxs : xs.mapM f with
          | ok ys =>
              rw [hxs] at h
              cases h
          | error e' =>
              rw [hxs] at h
              cases h
              obtain ⟨x', hx', herror⟩ := ih hxs
              exact ⟨x', List.mem_cons_of_mem _ hx', herror⟩

/-- Two traversals in a row return what one traversal of the composition returns. -/
theorem mapM_bind_mapM_eq_ok_iff {ε : Type*} {α β γ : Type} {f : α → Except ε β}
    {g : β → Except ε γ} {xs : List α} {zs : List γ} :
    (xs.mapM f >>= fun ys => ys.mapM g) = .ok zs ↔
      xs.mapM (fun x => f x >>= g) = .ok zs := by
  simp only [bind_eq_ok_iff, mapM_eq_ok_iff]
  constructor
  · rintro ⟨ys, hf, hg⟩
    induction hf generalizing zs with
    | nil =>
        cases hg
        exact .nil
    | cons hx hxs ih =>
        cases hg with
        | cons hy hys => exact .cons ⟨_, hx, hy⟩ (ih hys)
  · intro h
    induction h with
    | nil => exact ⟨[], .nil, .nil⟩
    | cons hx hxs ih =>
        obtain ⟨y, hf, hg⟩ := hx
        obtain ⟨ys, hfs, hgs⟩ := ih
        exact ⟨y :: ys, .cons hf hfs, .cons hg hgs⟩

/-- A loop with a counter that reads, and puts what it has read. -/
theorem foldlM_numbered {σ α β : Type} (f : Nat → α → Except Exn β) (put : σ → β → σ)
    (xs : List α) (s : σ) (n : Nat) :
    (xs.foldlM (fun t x => f t.2 x >>= fun b => .ok (put t.1 b, t.2 + 1)) (s, n) :
        Except Exn (σ × Nat)) =
      (fun bs => (bs.foldl put s, n + bs.length)) <$> (xs.zipIdx n).mapM fun p => f p.2 p.1 := by
  induction xs generalizing s n with
  | nil => rfl
  | cons x xs ih =>
      rw [List.foldlM_cons, List.zipIdx_cons, List.mapM_cons]
      dsimp only
      cases f n x with
      | error e => rfl
      | ok b =>
          rw [ok_bind, ok_bind, ok_bind, ih]
          cases (xs.zipIdx (n + 1)).mapM fun p => f p.2 p.1 with
          | error e => rfl
          | ok bs =>
              have hlength : n + 1 + bs.length = n + (b :: bs).length := by
                rw [List.length_cons]
                omega
              change Except.ok (_, n + 1 + bs.length) = Except.ok (_, n + (b :: bs).length)
              rw [hlength]
              rfl

/-! ### How a computation ends -/

/-- What the computation returns satisfies `P`, and what it raises satisfies `E`. -/
def Ends {α : Type*} (P : α → Prop) (E : Exn → Prop) (x : Except Exn α) : Prop :=
  (∀ a, x = .ok a → P a) ∧ ∀ e, x = .error e → E e

section
variable {α β : Type} {P : α → Prop} {Q : β → Prop} {E F : Exn → Prop}

theorem ends_ok {a : α} (h : P a) : Ends P E (.ok a) :=
  ⟨fun _ h' => Except.ok.inj h' ▸ h, nofun⟩

theorem ends_error {e : Exn} (h : E e) : Ends P E (.error e) :=
  ⟨nofun, fun _ h' => Except.error.inj h' ▸ h⟩

theorem ends_bind {x : Except Exn β} {f : β → Except Exn α} (hx : Ends Q E x)
    (hf : ∀ b, Q b → Ends P E (f b)) : Ends P E (x >>= f) := by
  cases x with
  | ok b => exact hf b (hx.1 b rfl)
  | error e => exact ends_error (hx.2 e rfl)

theorem ends_map {x : Except Exn β} {f : β → α} (hx : Ends Q E x)
    (hf : ∀ b, Q b → P (f b)) : Ends P E (f <$> x) := by
  cases x with
  | ok b => exact ends_ok (hf b (hx.1 b rfl))
  | error e => exact ends_error (hx.2 e rfl)

theorem ends_foldlM {ι : Type} {f : β → ι → Except Exn β} (hf : ∀ b i, Q b → Ends Q E (f b i))
    (is : List ι) {b : β} (hb : Q b) : Ends Q E (is.foldlM f b) := by
  induction is generalizing b with
  | nil => exact ends_ok hb
  | cons i is ih => exact ends_bind (hf b i hb) fun _ => ih

/-- A value, or an error where a condition fails. -/
theorem ends_if {p : Prop} [Decidable p] {a : α} {kind : ExnKind} {message : Text} (ha : P a)
    (he : E ⟨kind, message⟩) : Ends P E (if p then .ok a else raise kind message) := by
  split
  · exact ends_ok ha
  · exact ends_error he

theorem if_returns_iff {p : Prop} [Decidable p] {a : α} {kind : ExnKind} {message : Text} :
    (∃ b, (if p then .ok a else raise kind message : Except Exn α) = .ok b) ↔ p := by
  split
  · rename_i h
    exact iff_of_true ⟨a, rfl⟩ h
  · rename_i h
    refine iff_of_false ?_ h
    rintro ⟨b, hb⟩
    cases hb

/-- The rule for handlers: what is caught ends as the handler does. -/
theorem ends_tryExcept {x : Except Exn α} {classes : List ExnKind}
    {handler : Exn → Except Exn α} (hx : Ends P F x)
    (hc : ∀ e, F e → e.isInstance classes = true → Ends P E (handler e))
    (hu : ∀ e, F e → e.isInstance classes = false → E e) :
    Ends P E (tryExcept x classes handler) := by
  cases x with
  | ok a => exact ends_ok (hx.1 a rfl)
  | error e =>
      have he := hx.2 e rfl
      cases hi : e.isInstance classes with
      | true =>
          rw [tryExcept_caught handler hi]
          exact hc e he hi
      | false =>
          rw [tryExcept_uncaught handler hi]
          exact ends_error (hu e he hi)

theorem Ends.mono {x : Except Exn α} {P' : α → Prop} (h : Ends P E x) (hP : ∀ a, P a → P' a)
    (hE : ∀ e, E e → F e) : Ends P' F x :=
  ⟨fun a ha => hP a (h.1 a ha), fun e he => hE e (h.2 e he)⟩

/-- A handler that names every error and does not raise itself. -/
theorem ends_tryExcept_all {x : Except Exn α} {classes : List ExnKind}
    {handler : Exn → Except Exn α} (hx : Ends P (fun e => e.isInstance classes = true) x)
    (hh : ∀ e, Ends P E (handler e)) : Ends P E (tryExcept x classes handler) :=
  ends_tryExcept hx (fun e _ _ => hh e) fun e h h' => by
    rw [h] at h'
    cases h'

/-- A computation that cannot raise returns. -/
theorem Ends.returns {x : Except Exn α} (h : Ends P (fun _ => False) x) :
    ∃ a, x = .ok a ∧ P a := by
  cases x with
  | ok a => exact ⟨a, rfl, h.1 a rfl⟩
  | error e => exact (h.2 e rfl).elim

/-- A computation fails where its first half does, if the second never raises. -/
theorem isOk_bind {x : Except Exn β} {f : β → Except Exn α} (hf : ∀ b, ∃ a, f b = .ok a) :
    (x >>= f).isOk = x.isOk := by
  cases x with
  | ok b =>
      obtain ⟨a, h⟩ := hf b
      exact congrArg Except.isOk h
  | error e => rfl

/-! ### What gets past a handler -/

/-- The computation raises, and no class of the handler is the one raised. -/
def Escapes (classes : List ExnKind) (x : Except Exn α) : Prop :=
  ∃ e, x = .error e ∧ e.isInstance classes = false

theorem not_escapes_ok (classes : List ExnKind) (a : α) : ¬ Escapes classes (.ok a) := nofun

theorem escapes_error_iff (classes : List ExnKind) (e : Exn) :
    Escapes classes (.error e : Except Exn α) ↔ e.isInstance classes = false :=
  ⟨fun ⟨_, h, he⟩ => Except.error.inj h ▸ he, fun h => ⟨e, rfl, h⟩⟩

theorem escapes_raise_iff (classes : List ExnKind) (kind : ExnKind) :
    Escapes classes (raise kind : Except Exn α) ↔
      (⟨kind, []⟩ : Exn).isInstance classes = false := by
  simp only [Escapes, raise]
  constructor
  · rintro ⟨e, h, he⟩
    obtain rfl := Except.error.inj h
    exact he
  · exact fun h => ⟨_, rfl, h⟩

theorem not_escapes_raise {classes : List ExnKind} {kind : ExnKind}
    (h : (⟨kind, []⟩ : Exn).isInstance classes = true) :
    ¬ Escapes classes (raise kind : Except Exn α) := by
  rw [escapes_raise_iff, h]
  exact nofun

theorem escapes_bind_iff (classes : List ExnKind) (x : Except Exn β) (f : β → Except Exn α) :
    Escapes classes (x >>= f) ↔ Escapes classes x ∨ ∃ b, x = .ok b ∧ Escapes classes (f b) := by
  cases x with
  | ok b => exact ⟨fun h => .inr ⟨b, rfl, h⟩, fun h => by
      obtain h | ⟨b', h, he⟩ := h
      · exact absurd h (not_escapes_ok _ _)
      · obtain rfl := Except.ok.inj h
        exact he⟩
  | error e => exact ⟨fun ⟨e', h, he⟩ => .inl ⟨e', by rw [← Except.error.inj h], he⟩, fun h => by
      obtain ⟨e', h, he⟩ | ⟨b, h, -⟩ := h
      · exact ⟨e', by rw [← Except.error.inj h]; rfl, he⟩
      · cases h⟩

theorem not_escapes_bind_iff {classes : List ExnKind} {x : Except Exn α}
    {f : α → Except Exn β} :
    ¬ Escapes classes (x >>= f) ↔
      Ends (fun a => ¬ Escapes classes (f a)) (fun e => e.isInstance classes = true) x := by
  cases x with
  | ok a => exact ⟨fun h => ends_ok h, fun h => h.1 a rfl⟩
  | error e =>
      change ¬ Escapes classes (.error e) ↔ _
      rw [escapes_error_iff, Bool.not_eq_false]
      exact ⟨fun h => ends_error h, fun h => h.2 e rfl⟩

theorem ends_congr {P Q : α → Prop} {x : Except Exn α}
    (h : ∀ a, P a ↔ Q a) : Ends P E x ↔ Ends Q E x :=
  ⟨fun hx => hx.mono (fun a => (h a).mp) fun _ => id,
    fun hx => hx.mono (fun a => (h a).mpr) fun _ => id⟩

theorem Ends.not_escapes {x : Except Exn α} {classes : List ExnKind} (h : Ends P E x)
    (hE : ∀ e, E e → e.isInstance classes = true) : ¬ Escapes classes x := by
  rintro ⟨e, hx, he⟩
  rw [hE e (h.2 e hx)] at he
  cases he

theorem escapes_map_iff (classes : List ExnKind) (x : Except Exn β) (f : β → α) :
    Escapes classes (f <$> x) ↔ Escapes classes x := by
  cases x with
  | ok b => exact iff_of_false (not_escapes_ok _ _) (not_escapes_ok _ _)
  | error e => exact ⟨fun ⟨e', h, he⟩ => ⟨e', by rw [← Except.error.inj h], he⟩,
      fun ⟨e', h, he⟩ => ⟨e', by rw [← Except.error.inj h]; rfl, he⟩⟩

/-- Around a handler that never raises, what raises is what escapes. -/
theorem tryExcept_isOk_iff (x : Except Exn α) (classes : List ExnKind)
    (handler : Exn → Except Exn α) (hh : ∀ e, (handler e).isOk = true) :
    (tryExcept x classes handler).isOk = true ↔ ¬ Escapes classes x := by
  cases x with
  | ok a => exact iff_of_true rfl (not_escapes_ok _ _)
  | error e =>
      cases he : e.isInstance classes with
      | true =>
          rw [tryExcept_caught handler he]
          refine iff_of_true (hh e) ?_
          rintro ⟨e', h, he'⟩
          obtain rfl := Except.error.inj h
          rw [he] at he'
          cases he'
      | false =>
          rw [tryExcept_uncaught handler he]
          exact iff_of_false nofun (not_not.mpr ⟨e, rfl, he⟩)

/-! ### One check after another -/

theorem forM_cons (f : α → Except Exn Unit) (x : α) (xs : List α) :
    (x :: xs).forM f = f x >>= fun _ => xs.forM f := rfl

theorem forM_eq_ok_iff {f : α → Except Exn Unit} {xs : List α} :
    xs.forM f = .ok () ↔ ∀ x ∈ xs, f x = .ok () := by
  induction xs with
  | nil => exact iff_of_true rfl nofun
  | cons x xs ih =>
      rw [forM_cons, bind_eq_ok_iff, List.forall_mem_cons, ← ih]
      exact ⟨fun ⟨_, h⟩ => h, fun h => ⟨(), h⟩⟩

/-- What escapes from a row of checks escapes from the first that does not pass. -/
theorem escapes_forM_iff {f : α → Except Exn Unit} {classes : List ExnKind} {xs : List α} :
    Escapes classes (xs.forM f) ↔
      ∃ before x after, xs = before ++ x :: after ∧ (∀ y ∈ before, f y = .ok ()) ∧
        Escapes classes (f x) := by
  induction xs with
  | nil =>
      refine iff_of_false (not_escapes_ok _ _) ?_
      rintro ⟨before, x, after, h, -⟩
      exact absurd h.symm (List.append_ne_nil_of_right_ne_nil _ (List.cons_ne_nil _ _))
  | cons x xs ih =>
      rw [forM_cons, escapes_bind_iff, ih]
      constructor
      · rintro (hx | ⟨_, hx, before, y, after, rfl, hbefore, hy⟩)
        · exact ⟨[], x, xs, rfl, nofun, hx⟩
        · exact ⟨x :: before, y, after, rfl, List.forall_mem_cons.mpr ⟨hx, hbefore⟩, hy⟩
      · rintro ⟨before, y, after, h, hbefore, hy⟩
        cases before with
        | nil =>
            obtain ⟨rfl, rfl⟩ := List.cons.inj h
            exact .inl hy
        | cons z before =>
            obtain ⟨rfl, rfl⟩ := List.cons.inj h
            obtain ⟨hz, hbefore⟩ := List.forall_mem_cons.mp hbefore
            exact .inr ⟨(), hz, before, y, after, rfl, hbefore, hy⟩

/-- Where nothing that is raised is of the classes, what does not escape returns. -/
theorem Ends.not_escapes_iff {x : Except Exn α} {classes : List ExnKind}
    (h : Ends P (fun e => e.isInstance classes = false) x) :
    ¬ Escapes classes x ↔ ∃ a, x = .ok a := by
  cases x with
  | ok a => exact iff_of_true (not_escapes_ok _ _) ⟨a, rfl⟩
  | error e =>
      refine iff_of_false (not_not.mpr ⟨e, rfl, h.2 e rfl⟩) ?_
      rintro ⟨a, ha⟩
      cases ha

end

end Python
