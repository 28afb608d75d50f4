import NexusBackend.Library.JsonReader
import NexusBackend.Library.NumberText

/-!
What holds of every value that `json.loads` returns: a property of the tokens and the strings
that passes on to arrays and objects. Every float in a decoded value is one of binary64.
-/
namespace Python
namespace Json

/-! ### Induction over what is read -/

/-- A property of tokens and strings that passes on to what is built of them. -/
structure Hereditary (P : Json → Prop) : Prop where
  str : ∀ s, P (.str s)
  token : ∀ token v, resolve token = .ok v → P v
  arr : ∀ items, (∀ v ∈ items, P v) → P (.arr items)
  obj : ∀ pairs : List (Text × Json), (∀ p ∈ pairs, P p.2) → P (.obj pairs)

def Frame.Holds (P : Json → Prop) : Frame → Prop
  | .arr items => ∀ v ∈ items, P v
  | .obj pairs => ∀ p ∈ pairs, P p.2
  | .member pairs _ => ∀ p ∈ pairs, P p.2

/-- Everything that has been read so far has the property. -/
structure Reader.Holds (P : Json → Prop) (st : Reader) : Prop where
  stack : ∀ frame ∈ st.stack, frame.Holds P
  finished : ∀ v, st.mode = .finished v → P v

section
variable {P : Json → Prop} {stack : List Frame} {c limit : Nat}

/-- The computation leaves a reader with the property, if it returns. -/
abbrev Keeps (P : Json → Prop) (x : Except Exn Reader) : Prop :=
  Ends (Reader.Holds P) (fun _ => True) x

theorem keeps_error {e : Exn} : Keeps P (.error e) := ends_error trivial

theorem keeps_mode {mode : Mode} (hstack : ∀ frame ∈ stack, frame.Holds P)
    (hmode : ∀ v, mode ≠ .finished v) : Keeps P (.ok ⟨stack, mode⟩) :=
  ends_ok ⟨hstack, fun v hv => absurd hv (hmode v)⟩

theorem complete_keeps {v : Json} (hv : P v) (hstack : ∀ frame ∈ stack, frame.Holds P) :
    Keeps P (complete v stack) := by
  simp only [complete]
  split
  · refine ends_ok ⟨hstack, ?_⟩
    intro w hw
    cases hw
    exact hv
  · rename_i items rest
    rw [List.forall_mem_cons] at hstack
    refine keeps_mode (List.forall_mem_cons.mpr ⟨?_, hstack.2⟩) (by simp)
    intro w hw
    rcases List.mem_append.mp hw with hw | hw
    · exact hstack.1 w hw
    · rwa [List.mem_singleton.mp hw]
  · rename_i pairs key rest
    rw [List.forall_mem_cons] at hstack
    refine keeps_mode (List.forall_mem_cons.mpr ⟨?_, hstack.2⟩) (by simp)
    intro p hp
    rcases mem_setKey hp with hp | hp
    · rwa [hp]
    · exact hstack.1 p hp
  · exact keeps_error

variable (hP : Hereditary P)
include hP

theorem closeArray_keeps (hstack : ∀ frame ∈ stack, frame.Holds P) :
    Keeps P (closeArray stack) := by
  simp only [closeArray]
  split
  · rw [List.forall_mem_cons] at hstack
    exact complete_keeps (hP.arr _ hstack.1) hstack.2
  · exact keeps_error

theorem closeObject_keeps (hstack : ∀ frame ∈ stack, frame.Holds P) :
    Keeps P (closeObject stack) := by
  simp only [closeObject]
  split
  · rw [List.forall_mem_cons] at hstack
    exact complete_keeps (hP.obj _ hstack.1) hstack.2
  · exact keeps_error

omit hP in
theorem openContainer_keeps {frame : Frame} {mode : Mode} (hframe : frame.Holds P)
    (hmode : ∀ v, mode ≠ .finished v) (hstack : ∀ frame ∈ stack, frame.Holds P) :
    Keeps P (openContainer limit frame mode stack) := by
  simp only [openContainer]
  split
  · exact keeps_mode (List.forall_mem_cons.mpr ⟨hframe, hstack⟩) hmode
  · exact keeps_error

theorem stepValue_keeps {closable : Bool} (hstack : ∀ frame ∈ stack, frame.Holds P) :
    Keeps P (stepValue limit stack closable c) := by
  simp only [stepValue]
  split_ifs
  · exact keeps_mode hstack (by simp)
  · exact openContainer_keeps (List.forall_mem_nil _) (by simp) hstack
  · exact openContainer_keeps (List.forall_mem_nil _) (by simp) hstack
  · exact keeps_mode hstack (by simp)
  · exact keeps_mode hstack (by simp)
  · exact closeArray_keeps hP hstack
  · exact keeps_error

theorem stepKey_keeps {closable : Bool} (hstack : ∀ frame ∈ stack, frame.Holds P) :
    Keeps P (stepKey stack closable c) := by
  simp only [stepKey]
  split_ifs
  · exact keeps_mode hstack (by simp)
  · exact keeps_mode hstack (by simp)
  · exact closeObject_keeps hP hstack
  · exact keeps_error

omit hP in
theorem stepColon_keeps (hstack : ∀ frame ∈ stack, frame.Holds P) :
    Keeps P (stepColon stack c) := by
  simp only [stepColon]
  split_ifs
  · exact keeps_mode hstack (by simp)
  · exact keeps_mode hstack (by simp)
  · exact keeps_error

theorem stepAfter_keeps (hstack : ∀ frame ∈ stack, frame.Holds P) :
    Keeps P (stepAfter stack c) := by
  simp only [stepAfter]
  split_ifs
  · exact keeps_mode hstack (by simp)
  · split
    · exact keeps_mode hstack (by simp)
    · exact keeps_mode hstack (by simp)
    · exact keeps_error
  · exact closeArray_keeps hP hstack
  · exact closeObject_keeps hP hstack
  · exact keeps_error

theorem endString_keeps {isKey : Bool} {s : Text} (hstack : ∀ frame ∈ stack, frame.Holds P) :
    Keeps P (endString stack isKey s) := by
  simp only [endString]
  split
  · split
    · rw [List.forall_mem_cons] at hstack
      exact keeps_mode (List.forall_mem_cons.mpr hstack) (by simp)
    · exact keeps_error
  · exact complete_keeps (hP.str s) hstack

theorem stepString_keeps {isKey high : Bool} {read : Text} {escape : Escape}
    (hstack : ∀ frame ∈ stack, frame.Holds P) :
    Keeps P (stepString stack isKey read high escape c) := by
  simp only [stepString]
  split
  · split_ifs
    · exact endString_keeps hP hstack
    · exact keeps_mode hstack (by simp)
    · exact keeps_error
    · exact keeps_mode hstack (by simp)
  · split
    · exact keeps_mode hstack (by simp)
    · split
      · exact keeps_mode hstack (by simp)
      · exact keeps_error
  · split
    · exact keeps_error
    · split
      · exact keeps_mode hstack (by simp)
      · exact keeps_mode hstack (by simp)

theorem flush_keeps {st : Reader} (h : st.Holds P) : Keeps P (flush st) := by
  obtain ⟨stack, mode⟩ := st
  cases mode with
  | token read =>
      have hresolve : Ends P (fun _ => True) (resolve read.reverse) :=
        ⟨fun v hv => hP.token _ v hv, fun _ _ => trivial⟩
      exact ends_bind hresolve fun v hv => complete_keeps hv h.stack
  | _ => exact ends_ok h

theorem stepPlain_keeps (limit : Nat) {st : Reader} (h : st.Holds P) :
    Keeps P (stepPlain limit st c) := by
  obtain ⟨stack, mode⟩ := st
  cases mode with
  | value closable => exact stepValue_keeps hP h.stack
  | key closable => exact stepKey_keeps hP h.stack
  | colon => exact stepColon_keeps h.stack
  | string isKey read high escape => exact stepString_keeps hP h.stack
  | after => exact stepAfter_keeps hP h.stack
  | token read => exact keeps_error
  | finished v =>
      rw [stepPlain]
      dsimp only
      split
      · exact ends_ok h
      · exact keeps_error

theorem step_keeps (limit : Nat) {st : Reader} (h : st.Holds P) : Keeps P (step limit st c) := by
  obtain ⟨stack, mode⟩ := st
  cases mode with
  | token read =>
      rw [step]
      dsimp only
      split
      · exact keeps_mode h.stack (by simp)
      · exact ends_bind (flush_keeps hP h) fun st' h' => stepPlain_keeps hP limit h'
  | _ => exact stepPlain_keeps hP limit h

/-- A hereditary property holds of every value that is decoded. -/
theorem loads_hereditary {s : Text} {v : Json} (h : loads limit s = .ok v) : P v := by
  have hends : Ends P (fun _ => True) (loads limit s) := by
    simp only [loads]
    split
    · exact ends_error trivial
    have hstart : start.Holds P := ⟨List.forall_mem_nil _, by simp [start]⟩
    have hfeed : Keeps P (feed limit start s) :=
      ends_foldlM (fun st c h => step_keeps hP limit h) s hstart
    refine ends_bind hfeed fun st hst => ?_
    refine ends_bind (flush_keeps hP hst) fun st' hst' => ?_
    split
    · rename_i v hv
      exact ends_ok (hst'.finished v hv)
    · exact ends_error trivial
  exact hends.1 v h

end

/-! ### Floats of a decoded value -/

mutual

/-- Every float is one of binary64. -/
def Binary : Json → Prop
  | float x => ∀ q, x = .finite q → IsDyadic q
  | arr items => BinaryItems items
  | obj pairs => BinaryPairs pairs
  | _ => True

def BinaryItems : List Json → Prop
  | [] => True
  | v :: vs => Binary v ∧ BinaryItems vs

def BinaryPairs : List (Text × Json) → Prop
  | [] => True
  | (_, v) :: ps => Binary v ∧ BinaryPairs ps

end

theorem binary_arr_iff {items : List Json} : (arr items).Binary ↔ ∀ v ∈ items, v.Binary := by
  change BinaryItems items ↔ _
  induction items with
  | nil => exact ⟨fun _ => nofun, fun _ => trivial⟩
  | cons v items ih => rw [BinaryItems, ih, List.forall_mem_cons]

theorem binary_obj_iff {pairs : List (Text × Json)} :
    (obj pairs).Binary ↔ ∀ p ∈ pairs, p.2.Binary := by
  change BinaryPairs pairs ↔ _
  induction pairs with
  | nil => exact ⟨fun _ => nofun, fun _ => trivial⟩
  | cons p pairs ih => rw [BinaryPairs, ih, List.forall_mem_cons]

end Json

theorem isDyadic_ofScientific {negative : Bool} {coefficient : Nat} {exponent : Int} {q : ℚ}
    (h : Float.ofScientific negative coefficient exponent = .finite q) : IsDyadic q := by
  rw [Float.ofScientific] at h
  split at h
  · cases h
    exact isDyadic_of_ofRat (if_pos rfl)
  · split at h
    · cases h
    · exact isDyadic_of_ofRat h

/-- `float` of a text rounds to binary64. -/
theorem isDyadic_floatOfText {s : Text} {q : ℚ} (h : floatOfText s = .ok (.finite q)) :
    IsDyadic q := by
  rw [floatOfText] at h
  dsimp only at h
  split at h
  · rename_i x hread
    obtain rfl := Except.ok.inj h
    obtain ⟨t, -, ht⟩ := Option.bind_eq_some_iff.mp hread
    split_ifs at ht
    · cases ht
    · cases ht
    · obtain ⟨n, -, hn⟩ := Option.map_eq_some_iff.mp ht
      exact isDyadic_ofScientific hn
  · cases h

namespace Json

theorem binary_numberValue {isFloat : Bool} {lexeme : Text} {v : Json}
    (h : numberValue isFloat lexeme = .ok v) : v.Binary := by
  rw [numberValue] at h
  split at h
  · cases hx : floatOfText lexeme with
    | error e =>
        rw [hx] at h
        cases h
    | ok x =>
        rw [hx] at h
        cases h
        intro q hq
        exact isDyadic_floatOfText (hq ▸ hx)
  · cases hn : intOfText lexeme with
    | error e =>
        rw [hn] at h
        cases h
    | ok n =>
        rw [hn] at h
        cases h
        trivial

theorem hereditary_binary : Hereditary Binary where
  str _ := trivial
  token token v h := by
    rw [resolve] at h
    split_ifs at h
    all_goals try
      cases h
      trivial
    · cases h
      intro q hq
      cases hq
    · cases h
      intro q hq
      cases hq
    · cases h
      intro q hq
      cases hq
    split at h
    · cases h
    · rename_i lexeme isFloat rest hprefix
      obtain ⟨w, hw, h⟩ := bind_eq_ok_iff.mp h
      split at h
      · cases h
        exact binary_numberValue hw
      · cases h
  arr _ h := binary_arr_iff.mpr h
  obj _ h := binary_obj_iff.mpr h

/-- Every float of a decoded value is one of binary64. -/
theorem loads_binary {limit : Nat} {s : Text} {v : Json} (h : loads limit s = .ok v) : v.Binary :=
  loads_hereditary hereditary_binary h

theorem Binary.of_get? {pairs : List (Text × Json)} {key : Text} {v : Json}
    (h : (obj pairs).Binary) (hv : get? pairs key = some v) : v.Binary :=
  binary_obj_iff.mp h _ (mem_of_get? hv)

/-- A value that reads as a finite float reads as one of binary64. -/
theorem Binary.toFloat {v : Json} (hv : v.Binary) {q : ℚ} (h : v.toFloat = .ok (.finite q)) :
    IsDyadic q := by
  cases v with
  | bool b =>
      cases h
      cases b with
      | false => simpa using isDyadic_of_ofRat (show Float.ofRat 0 = .finite 0 from if_pos rfl)
      | true => simpa using isDyadic_zpow (show -1074 ≤ 0 by decide) (by decide)
  | int n =>
      rw [Json.toFloat, floatOfInt] at h
      split at h
      · cases h
      · exact isDyadic_of_ofRat (Except.ok.inj h)
  | float x =>
      cases h
      exact hv q rfl
  | str s => exact isDyadic_floatOfText h
  | _ => cases h

end Json
end Python
