import NexusBackend.Library.Json

/-!
How a decoded value is tested, looked up and converted; what `json.loads` raises, and
what it returns for a text that opens a brace.
-/
namespace Python
namespace Json

/-! ### Operations of the decoded value -/

/-- `bool(v)`. -/
def truthy : Json → Bool
  | null => false
  | bool b => b
  | int n => n ≠ 0
  | float (.finite q) => q ≠ 0
  | float _ => true
  | str s => s ≠ []
  | arr items => !items.isEmpty
  | obj pairs => !pairs.isEmpty

/-- `v.get(key)`: only an object has the method. -/
def dictGet (v : Json) (key : Text) : Except Exn (Option Json) :=
  match v with
  | obj pairs => .ok (get? pairs key)
  | _ => raise .attributeError

/-- What iterating over the value yields. -/
def iterate : Json → Except Exn (List Json)
  | arr items => .ok items
  | obj pairs => .ok (pairs.map fun p => str p.1)
  | str s => .ok (s.map fun c => str [c])
  | _ => raise .typeError

/-- `v or default`, of what `get` returned. -/
def orElse (v : Option Json) (default : Json) : Json := (v.filter truthy).getD default

/-- What a dict compares of a key: equal numbers are one key. -/
inductive HashKey
  | none
  | str (s : Text)
  | number (x : Float)
deriving DecidableEq

/-- The value as the key of a dict; lists and dicts cannot be one. -/
def hashKey : Json → Except Exn HashKey
  | null => .ok .none
  | bool b => .ok (.number (.finite b.toNat))
  | int n => .ok (.number (.finite n))
  | float x => .ok (.number x)
  | str s => .ok (.str s)
  | arr _ | obj _ => raise .typeError

/-- The two are one key; NaN is equal to no other value. -/
def HashKey.same (a b : HashKey) : Bool := a = b && a ≠ .number .nan

/-- `int(v)`. -/
def toInt : Json → Except Exn Int
  | bool b => .ok b.toNat
  | int n => .ok n
  | float x => intOfFloat x
  | str s => intOfText s
  | _ => raise .typeError

/-- `float(v)`. -/
def toFloat : Json → Except Exn Float
  | bool b => .ok (.finite b.toNat)
  | int n => floatOfInt n
  | float x => .ok x
  | str s => floatOfText s
  | _ => raise .typeError

/-! ### What the conversions refuse -/

/-- An integer that `float` refuses. -/
def BeyondFloats (v : Json) : Prop :=
  ∃ n : Int, v = .int n ∧ ∃ negative, Float.ofRat n = .inf negative

/-- A float that `int` refuses; that it is no number is another matter. -/
def Infinite (v : Json) : Prop := ∃ negative, v = .float (.inf negative)

theorem not_beyondFloats {v : Json} (h : ∀ n, v ≠ .int n) : ¬ BeyondFloats v := by
  rintro ⟨n, rfl, -⟩
  exact h n rfl

theorem not_infinite {v : Json} (h : ∀ negative, v ≠ .float (.inf negative)) : ¬ Infinite v := by
  rintro ⟨negative, rfl⟩
  exact h negative rfl

section
variable {classes : List ExnKind} (hvalue : .valueError ∈ classes) (htype : .typeError ∈ classes)
  (hover : (⟨.overflowError, []⟩ : Exn).isInstance classes = false)
include hvalue htype hover

theorem escapes_toFloat_iff (v : Json) : Escapes classes v.toFloat ↔ BeyondFloats v := by
  cases v with
  | int n =>
      rw [toFloat, floatOfInt]
      cases hx : Float.ofRat n with
      | inf negative =>
          exact iff_of_true ((escapes_raise_iff _ _).mpr hover) ⟨n, rfl, negative, hx⟩
      | _ =>
          refine iff_of_false (not_escapes_ok _ _) ?_
          rintro ⟨m, hm, negative, h⟩
          cases hm
          rw [hx] at h
          cases h
  | str s =>
      exact iff_of_false ((floatOfText_ends s).not_escapes
        fun e h => Exn.isInstance_of_mem _ h hvalue) (not_beyondFloats (by simp))
  | bool b => exact iff_of_false (not_escapes_ok _ _) (not_beyondFloats (by simp))
  | float x => exact iff_of_false (not_escapes_ok _ _) (not_beyondFloats (by simp))
  | _ =>
      exact iff_of_false (not_escapes_raise (Exn.isInstance_of_mem _ rfl htype))
        (not_beyondFloats (by simp))

theorem escapes_toInt_iff (v : Json) : Escapes classes v.toInt ↔ Infinite v := by
  cases v with
  | float x =>
      cases x with
      | inf negative => exact iff_of_true ((escapes_raise_iff _ _).mpr hover) ⟨negative, rfl⟩
      | nan =>
          exact iff_of_false (not_escapes_raise (Exn.isInstance_of_mem _ rfl hvalue))
            (not_infinite (by simp))
      | finite q => exact iff_of_false (not_escapes_ok _ _) (not_infinite (by simp))
  | str s =>
      exact iff_of_false ((intOfText_ends s).not_escapes
        fun e h => Exn.isInstance_of_mem _ h hvalue) (not_infinite (by simp))
  | bool b => exact iff_of_false (not_escapes_ok _ _) (not_infinite (by simp))
  | int n => exact iff_of_false (not_escapes_ok _ _) (not_infinite (by simp))
  | _ =>
      exact iff_of_false (not_escapes_raise (Exn.isInstance_of_mem _ rfl htype))
        (not_infinite (by simp))

end

/-! ### Errors of the reader -/

/-- The errors of the reader: a `ValueError` of some kind, or the recursion limit. -/
def Refusal (e : Exn) : Prop := e.isInstance [.valueError] = true ∨ e.kind = .recursionError

/-- What the computation returns satisfies `P`, and what it raises is a refusal. -/
abbrev Reads {α : Type} (P : α → Prop) (x : Except Exn α) : Prop := Ends P Refusal x

theorem reads_decodeError {α : Type} {P : α → Prop} : Reads P decodeError :=
  ends_error (.inl rfl)

/-! ### The root of a text that opens a brace -/

def Frame.ofObject : Frame → Bool
  | .arr _ => false
  | .obj _ => true
  | .member .. => true

/-- The outermost open container is an object. -/
def rootIsObject (stack : List Frame) : Bool := (stack.getLast?.map Frame.ofObject).getD false

/-- The reader is inside an object, or just past its end. -/
def Rooted (st : Reader) : Prop :=
  match st.mode with
  | .finished (.obj _) => True
  | .finished _ => False
  | _ => rootIsObject st.stack = true

theorem rootIsObject_cons {stack : List Frame} (frame : Frame) (h : stack ≠ []) :
    rootIsObject (frame :: stack) = rootIsObject stack := by
  simp only [rootIsObject]
  rw [List.getLast?_cons_of_ne_nil h]

theorem rootIsObject_head {f g : Frame} {stack : List Frame}
    (h : rootIsObject (f :: stack) = true) (hfg : f.ofObject = g.ofObject) :
    rootIsObject (g :: stack) = true := by
  cases stack with
  | nil => exact hfg.symm.trans h
  | cons k rest => rwa [rootIsObject_cons f (by simp), ← rootIsObject_cons g (by simp)] at h

theorem rootIsObject_push {stack : List Frame} (frame : Frame)
    (h : rootIsObject stack = true) : rootIsObject (frame :: stack) = true := by
  rw [rootIsObject_cons]
  · exact h
  · rintro rfl
    cases h

theorem rootIsObject_pop {stack : List Frame} {frame : Frame}
    (h : rootIsObject (frame :: stack) = true) : rootIsObject stack = true ∨ stack = [] := by
  cases stack with
  | nil => exact .inr rfl
  | cons k rest => exact .inl (by rwa [rootIsObject_cons frame (by simp)] at h)

section
variable {p : Prop} {stack : List Frame} {c limit : Nat}

/-- A value that is complete goes into the object at the root, or is that object. -/
theorem complete_reads {v : Json}
    (h : p → rootIsObject stack = true ∨ stack = [] ∧ ∃ pairs, v = .obj pairs) :
    Reads (fun st => p → Rooted st) (complete v stack) := by
  simp only [complete]
  split
  · refine ends_ok fun hp => ?_
    obtain h | ⟨-, pairs, rfl⟩ := h hp
    · cases h
    · trivial
  · rename_i items rest
    refine ends_ok fun hp => ?_
    obtain h | ⟨h, -⟩ := h hp
    · exact rootIsObject_head h rfl
    · cases h
  · rename_i pairs key rest
    refine ends_ok fun hp => ?_
    obtain h | ⟨h, -⟩ := h hp
    · exact rootIsObject_head h rfl
    · cases h
  · exact reads_decodeError

theorem closeArray_reads (h : p → rootIsObject stack = true) :
    Reads (fun st => p → Rooted st) (closeArray stack) := by
  simp only [closeArray]
  split
  · rename_i items rest
    refine complete_reads fun hp => ?_
    obtain h | rfl := rootIsObject_pop (h hp)
    · exact .inl h
    · cases h hp
  · exact reads_decodeError

theorem closeObject_reads (h : p → rootIsObject stack = true) :
    Reads (fun st => p → Rooted st) (closeObject stack) := by
  simp only [closeObject]
  split
  · rename_i pairs rest
    exact complete_reads fun hp => (rootIsObject_pop (h hp)).imp id fun hr => ⟨hr, pairs, rfl⟩
  · exact reads_decodeError

theorem openContainer_reads {frame : Frame} {mode : Mode} (hm : ∀ v, mode ≠ .finished v)
    (h : p → rootIsObject (frame :: stack) = true) :
    Reads (fun st => p → Rooted st) (openContainer limit frame mode stack) := by
  simp only [openContainer]
  split
  · refine ends_ok fun hp => ?_
    cases mode with
    | finished v => exact absurd rfl (hm v)
    | _ => exact h hp
  · exact ends_error (.inr rfl)

theorem stepValue_reads {closable : Bool} (h : p → rootIsObject stack = true) :
    Reads (fun st => p → Rooted st) (stepValue limit stack closable c) := by
  simp only [stepValue]
  split_ifs
  · exact ends_ok h
  · exact openContainer_reads (by simp) fun hp => rootIsObject_push _ (h hp)
  · exact openContainer_reads (by simp) fun hp => rootIsObject_push _ (h hp)
  · exact ends_ok h
  · exact ends_ok h
  · exact closeArray_reads h
  · exact reads_decodeError

theorem stepKey_reads {closable : Bool} (h : p → rootIsObject stack = true) :
    Reads (fun st => p → Rooted st) (stepKey stack closable c) := by
  simp only [stepKey]
  split_ifs
  · exact ends_ok h
  · exact ends_ok h
  · exact closeObject_reads h
  · exact reads_decodeError

theorem stepColon_reads (h : p → rootIsObject stack = true) :
    Reads (fun st => p → Rooted st) (stepColon stack c) := by
  simp only [stepColon]
  split_ifs
  · exact ends_ok h
  · exact ends_ok h
  · exact reads_decodeError

theorem stepAfter_reads (h : p → rootIsObject stack = true) :
    Reads (fun st => p → Rooted st) (stepAfter stack c) := by
  simp only [stepAfter]
  split_ifs
  · exact ends_ok h
  · split
    · exact ends_ok h
    · exact ends_ok h
    · exact reads_decodeError
  · exact closeArray_reads h
  · exact closeObject_reads h
  · exact reads_decodeError

theorem endString_reads {isKey : Bool} {s : Text} (h : p → rootIsObject stack = true) :
    Reads (fun st => p → Rooted st) (endString stack isKey s) := by
  simp only [endString]
  split
  · split
    · rename_i pairs rest
      exact ends_ok fun hp => rootIsObject_head (h hp) rfl
    · exact reads_decodeError
  · exact complete_reads fun hp => .inl (h hp)

theorem stepString_reads {isKey high : Bool} {read : Text} {escape : Escape}
    (h : p → rootIsObject stack = true) :
    Reads (fun st => p → Rooted st) (stepString stack isKey read high escape c) := by
  simp only [stepString]
  split
  · split_ifs
    · exact endString_reads h
    · exact ends_ok h
    · exact reads_decodeError
    · exact ends_ok h
  · split
    · exact ends_ok h
    · split
      · exact ends_ok h
      · exact reads_decodeError
  · split
    · exact reads_decodeError
    · split
      · exact ends_ok h
      · exact ends_ok h

end

theorem numberValue_reads (isFloat : Bool) (lexeme : Text) :
    Reads (fun _ => True) (numberValue isFloat lexeme) := by
  have hrefuse : ∀ e : Exn, e.kind = .valueError → Refusal e :=
    fun e h => .inl (Exn.isInstance_of_mem _ h (by simp))
  simp only [numberValue]
  split
  · exact ends_map ((floatOfText_ends lexeme).mono (fun _ h => h) hrefuse) fun _ _ => trivial
  · exact ends_map ((intOfText_ends lexeme).mono (fun _ h => h) hrefuse) fun _ _ => trivial

theorem resolve_reads (token : Text) : Reads (fun _ => True) (resolve token) := by
  simp only [resolve]
  split_ifs
  all_goals try exact ends_ok trivial
  split
  · exact reads_decodeError
  · refine ends_bind (numberValue_reads _ _) fun v _ => ?_
    split
    · exact ends_ok trivial
    · exact reads_decodeError

theorem flush_reads {p : Prop} {st : Reader} (h : p → Rooted st) :
    Reads (fun st => p → Rooted st) (flush st) := by
  obtain ⟨stack, mode⟩ := st
  cases mode with
  | token read =>
      exact ends_bind (resolve_reads _) fun v _ => complete_reads fun hp => .inl (h hp)
  | _ => exact ends_ok h

theorem stepPlain_reads {p : Prop} (limit : Nat) {c : Nat} {st : Reader} (h : p → Rooted st) :
    Reads (fun st => p → Rooted st) (stepPlain limit st c) := by
  obtain ⟨stack, mode⟩ := st
  cases mode with
  | value closable => exact stepValue_reads h
  | key closable => exact stepKey_reads h
  | colon => exact stepColon_reads h
  | string isKey read high escape => exact stepString_reads h
  | after => exact stepAfter_reads h
  | token read => exact reads_decodeError
  | finished v =>
      rw [stepPlain]
      dsimp only
      split
      · exact ends_ok h
      · exact reads_decodeError

theorem step_reads {p : Prop} (limit : Nat) {st : Reader} (c : Nat) (h : p → Rooted st) :
    Reads (fun st => p → Rooted st) (step limit st c) := by
  obtain ⟨stack, mode⟩ := st
  cases mode with
  | token read =>
      rw [step]
      dsimp only
      split
      · exact ends_ok h
      · exact ends_bind (flush_reads h) fun st' h' => stepPlain_reads limit h'
  | _ => exact stepPlain_reads limit h

theorem finish_reads {p : Prop} {st : Reader} (h : p → Rooted st) :
    Reads (fun v => p → ∃ pairs, v = .obj pairs) (finish st) := by
  refine ends_bind (flush_reads h) fun st' h' => ?_
  split
  · rename_i v hm
    refine ends_ok fun hp => ?_
    have hr := h' hp
    simp only [Rooted] at hr
    rw [hm] at hr
    cases v with
    | obj pairs => exact ⟨pairs, rfl⟩
    | _ => exact absurd hr id
  · exact reads_decodeError

/-- The reader after the first character. -/
theorem start_reads (limit c : Nat) :
    Reads (fun st => c = 123 → Rooted st) (step limit start c) := by
  by_cases hc : c = 123
  · subst hc
    change Reads _ (openContainer limit (.obj []) (.key true) [])
    exact openContainer_reads (by simp) fun _ => rfl
  · have h : Reads (fun st => False → Rooted st) (step limit start c) := step_reads limit c nofun
    exact ⟨fun _ _ hp => absurd hp hc, h.2⟩

theorem loads_reads (limit : Nat) (s : Text) :
    Reads (fun v => s.head? = some 123 → ∃ pairs, v = .obj pairs) (loads limit s) := by
  simp only [loads]
  split
  · exact reads_decodeError
  refine ends_bind (Q := fun st => s.head? = some 123 → Rooted st) ?_
    fun st h => finish_reads h
  cases s with
  | nil => exact ends_ok nofun
  | cons c s =>
      simp only [feed, List.foldlM_cons, List.head?_cons, Option.some.injEq]
      exact ends_bind (start_reads limit c) fun st h =>
        ends_foldlM (fun st c h => step_reads limit c h) s h

theorem loads_error {limit : Nat} {s : Text} {e : Exn} (h : loads limit s = .error e) :
    Refusal e :=
  (loads_reads limit s).2 e h

/-- A text that opens a brace decodes to an object, if at all. -/
theorem loads_object {limit : Nat} {s : Text} {v : Json} (hs : s.head? = some 123)
    (h : loads limit s = .ok v) : ∃ pairs, v = .obj pairs :=
  (loads_reads limit s).1 v h hs

end Json
end Python
