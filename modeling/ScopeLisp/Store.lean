import ScopeLisp.Store.Bindings
import ScopeLisp.Text.Quoted

/-!
# The store

All scopes live in one store: an array of frames, each linked to the frame around it, and an array
of closures. A block, a call, a class and an instance are frames alike and differ only in what they
are linked to. A name means its nearest binding along the chain of a frame (`Store.chain`), and
assigning changes that binding where it stands. Frames and closures are only ever added, and a link
never changes; `chain_define` says that writing leaves all chains alone.
-/

namespace ScopeLisp

/-- What a frame was made for. Evaluation does not consult it; it tells the frames apart in
statements about programs. -/
inductive Role where
  | global
  | block
  | call
  /-- A class, made from the object `base` if that was one. -/
  | classBody (base : Option FrameId)
  | instanceOf (cls : FrameId)
deriving DecidableEq, Repr

/-- One scope: its own bindings, and the scope around it. -/
structure Frame where
  role : Role
  parent : Option FrameId
  vars : Bindings := {}
deriving DecidableEq, Repr

/-- A procedure written in the language, with the frame it was made in. -/
structure Closure where
  params : List String
  body : Datum
  scope : FrameId
deriving DecidableEq, Repr

/-- The text of a closure is the form that makes it. -/
def Closure.text (c : Closure) : String :=
  "(lambda (" ++ " ".intercalate c.params ++ ") " ++ c.body.text ++ ")"

structure Store where
  frames : Array Frame := #[]
  closures : Array Closure := #[]
deriving DecidableEq, Repr

namespace Store

/-- The bindings of a frame itself. A frame that does not exist binds nothing. -/
def own (s : Store) (id : FrameId) : Bindings := ((s.frames[id]?).map Frame.vars).getD {}

def names (s : Store) (id : FrameId) : List String := (s.own id).names

def parent? (s : Store) (id : FrameId) : Option FrameId := (s.frames[id]?).bind Frame.parent

/-- At most `limit` frames from `id` outwards. -/
def chainUpTo (s : Store) : (limit : Nat) → FrameId → List FrameId
  | 0, _ => []
  | limit + 1, id =>
    match s.frames[id]? with
    | none => []
    | some f =>
      id :: match f.parent with
        | none => []
        | some p => s.chainUpTo limit p

/-- A frame, the frame around it, and so on. No chain without a repetition is longer than the number
of frames. -/
def chain (s : Store) (id : FrameId) : List FrameId := s.chainUpTo s.frames.size id

def owner? (s : Store) (id : FrameId) (name : String) : Option FrameId :=
  (s.chain id).find? fun f => (s.own f).owns name

def lookup? (s : Store) (id : FrameId) (name : String) : Option Value :=
  (s.chain id).findSome? fun f => (s.own f).get? name

/-- Binds `name` in the frame itself. -/
def define (s : Store) (id : FrameId) (name : String) (v : Value) : Store :=
  { s with frames := s.frames.modify id fun f => { f with vars := f.vars.insert name v } }

def addFrame (s : Store) (role : Role) (parent : Option FrameId) : FrameId × Store :=
  (s.frames.size, { s with frames := s.frames.push { role, parent } })

def addClosure (s : Store) (c : Closure) : ClosureId × Store :=
  (s.closures.size, { s with closures := s.closures.push c })

/-- A frame as a record. The values are left out, since they can lead back to the frame. -/
def record (s : Store) (id : FrameId) : String :=
  let hasParent := if (s.parent? id).isSome then "true" else "false"
  "Env \x7b vars: " ++ Text.quoteList (s.names id) ++ ", has_parent: " ++ hasParent ++ " \x7d"

/-! ## Writing -/

theorem getElem?_define (s : Store) (id : FrameId) (name : String) (v : Value) (f : FrameId) :
    (s.define id name v).frames[f]? =
      if f = id then (s.frames[f]?).map fun x => { x with vars := x.vars.insert name v }
      else s.frames[f]? := by
  by_cases h : f = id
  · subst h; simp [define, Array.getElem?_modify]
  · simp [define, Array.getElem?_modify, h, Ne.symm h]

@[simp] theorem size_define (s : Store) (id : FrameId) (name : String) (v : Value) :
    (s.define id name v).frames.size = s.frames.size := by simp [define]

theorem chainUpTo_define (s : Store) (id : FrameId) (name : String) (v : Value) (limit : Nat)
    (f : FrameId) : (s.define id name v).chainUpTo limit f = s.chainUpTo limit f := by
  induction limit generalizing f with
  | zero => rfl
  | succ limit ih =>
    rw [chainUpTo, chainUpTo, getElem?_define]
    by_cases h : f = id
    · subst h; cases s.frames[f]? <;> simp [ih]
    · simp [h, ih]

@[simp] theorem chain_define (s : Store) (id : FrameId) (name : String) (v : Value) (f : FrameId) :
    (s.define id name v).chain f = s.chain f := by
  simp [chain, chainUpTo_define]

theorem own_define (s : Store) {id : FrameId} (h : id < s.frames.size) (name : String) (v : Value)
    (f : FrameId) :
    (s.define id name v).own f = if f = id then (s.own f).insert name v else s.own f := by
  unfold own
  rw [getElem?_define]
  by_cases hf : f = id
  · subst hf; simp [h]
  · simp [hf]

/-- A frame that does not exist is not written. -/
theorem own_define_of_le (s : Store) {id : FrameId} (h : s.frames.size ≤ id) (name : String)
    (v : Value) (f : FrameId) : (s.define id name v).own f = s.own f := by
  unfold own
  rw [getElem?_define]
  by_cases hf : f = id
  · subst hf; simp [Array.getElem?_eq_none h]
  · simp [hf]

theorem own_define_of_ne (s : Store) {id f : FrameId} (h : f ≠ id) (name : String) (v : Value) :
    (s.define id name v).own f = s.own f := by
  rw [own, own, getElem?_define, if_neg h]

/-- What is bound after a write was bound before, or is what was written. -/
theorem get?_of_define {s : Store} {id f : FrameId} {name other : String} {v w : Value}
    (h : ((s.define id name v).own f).get? other = some w) :
    (f = id ∧ w = v) ∨ (s.own f).get? other = some w := by
  by_cases hid : id < s.frames.size
  · rw [own_define s hid] at h
    split at h
    · next hf =>
      rw [Bindings.get?_insert] at h
      split at h
      · exact .inl ⟨hf, (Option.some.inj h).symm⟩
      · exact .inr h
    · exact .inr h
  · rw [own_define_of_le s (Nat.not_lt.1 hid)] at h
    exact .inr h

@[simp] theorem parent?_define (s : Store) (id : FrameId) (name : String) (v : Value)
    (f : FrameId) : (s.define id name v).parent? f = s.parent? f := by
  unfold parent?
  rw [getElem?_define]
  split
  · cases s.frames[f]? <;> rfl
  · rfl

@[simp] theorem closures_define (s : Store) (id : FrameId) (name : String) (v : Value) :
    (s.define id name v).closures = s.closures := rfl

/-! ## Adding frames and closures -/

@[simp] theorem size_addFrame (s : Store) (role : Role) (parent : Option FrameId) :
    (s.addFrame role parent).2.frames.size = s.frames.size + 1 := by simp [addFrame]

@[simp] theorem closures_addFrame (s : Store) (role : Role) (parent : Option FrameId) :
    (s.addFrame role parent).2.closures = s.closures := rfl

theorem getElem?_addFrame (s : Store) (role : Role) (parent : Option FrameId) (f : FrameId) :
    (s.addFrame role parent).2.frames[f]? =
      if f = s.frames.size then some { role, parent } else s.frames[f]? := by
  simp [addFrame, Array.getElem?_push]

/-- A new frame binds nothing, as it did when it did not exist. -/
@[simp] theorem own_addFrame (s : Store) (role : Role) (parent : Option FrameId) (f : FrameId) :
    (s.addFrame role parent).2.own f = s.own f := by
  unfold own
  rw [getElem?_addFrame]
  split
  · next h => subst h; simp
  · rfl

theorem parent?_addFrame (s : Store) (role : Role) (parent : Option FrameId) (f : FrameId) :
    (s.addFrame role parent).2.parent? f = if f = s.frames.size then parent else s.parent? f := by
  unfold parent?
  rw [getElem?_addFrame]
  split <;> rfl

@[simp] theorem frames_addClosure (s : Store) (c : Closure) :
    (s.addClosure c).2.frames = s.frames := rfl

@[simp] theorem size_addClosure (s : Store) (c : Closure) :
    (s.addClosure c).2.closures.size = s.closures.size + 1 := by simp [addClosure]

theorem closures_addClosure (s : Store) (c : Closure) (id : ClosureId) :
    (s.addClosure c).2.closures[id]? =
      if id = s.closures.size then some c else s.closures[id]? := by
  simp [addClosure, Array.getElem?_push]

@[simp] theorem own_addClosure (s : Store) (c : Closure) (f : FrameId) :
    (s.addClosure c).2.own f = s.own f := rfl

@[simp] theorem parent?_addClosure (s : Store) (c : Closure) (f : FrameId) :
    (s.addClosure c).2.parent? f = s.parent? f := rfl

/-! ## Frames that do not exist -/

theorem own_of_le {s : Store} {f : FrameId} (h : s.frames.size ≤ f) : s.own f = {} := by
  rw [own, Array.getElem?_eq_none h]
  rfl

theorem lt_of_parent? {s : Store} {f p : FrameId} (h : s.parent? f = some p) :
    f < s.frames.size := by
  unfold parent? at h
  cases hf : s.frames[f]? with
  | none => rw [hf] at h; cases h
  | some frame => exact (Array.getElem?_eq_some_iff.1 hf).1

theorem lt_of_get? {s : Store} {f : FrameId} {name : String} {v : Value}
    (h : (s.own f).get? name = some v) : f < s.frames.size := by
  unfold own at h
  cases hf : s.frames[f]? with
  | none => rw [hf] at h; cases h
  | some frame => exact (Array.getElem?_eq_some_iff.1 hf).1

/-! ## Searching along a chain -/

theorem owns_iff {s : Store} {f : FrameId} {name : String} :
    (s.own f).owns name = true ↔ ∃ v, (s.own f).get? name = some v := Option.isSome_iff_exists

theorem mem_chain_of_owner? {s : Store} {env f : FrameId} {name : String}
    (h : s.owner? env name = some f) : f ∈ s.chain env ∧ (s.own f).owns name = true := by
  have hf := List.find?_some h
  exact ⟨List.mem_of_find?_eq_some h, hf⟩

theorem mem_chain_of_lookup? {s : Store} {env : FrameId} {name : String} {v : Value}
    (h : s.lookup? env name = some v) : ∃ f ∈ s.chain env, (s.own f).get? name = some v :=
  List.exists_of_findSome?_eq_some h

/-- The value that a name means is the one that its owner binds. -/
theorem lookup?_eq_bind_owner? (s : Store) (env : FrameId) (name : String) :
    s.lookup? env name = (s.owner? env name).bind fun f => (s.own f).get? name := by
  unfold lookup? owner?
  induction s.chain env with
  | nil => rfl
  | cons f fs ih =>
    rw [List.findSome?_cons, List.find?_cons]
    cases h : (s.own f).get? name with
    | none =>
      have hf : (s.own f).owns name = false := by simp [Bindings.owns, h]
      simp only [hf, ih]
    | some v =>
      have hf : (s.own f).owns name = true := by simp [Bindings.owns, h]
      simp only [hf, Option.bind_some, h]

end Store

namespace Value

/-- The text of a value. A string is written without quotes, and an object with its own names. -/
def text (s : Store) : Value → String
  | number x => Number.text x
  | str text => text
  | bool true => "true"
  | bool false => "false"
  | null => "null"
  | native op => "<native " ++ op.name ++ ">"
  | proc id => ((s.closures[id]?).map Closure.text).getD ""
  | object frame => "<env " ++ ", ".intercalate (s.names frame) ++ ">"
  | unit => "<unit>"

end Value

end ScopeLisp
