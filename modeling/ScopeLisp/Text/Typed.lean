import ScopeLisp.Text.Cluster

/-!
# Typed text

A line as it comes from a keyboard, with backspaces, each of which takes back the cluster typed
before it. The size of a cluster is kept in one byte, so that a backspace can end inside a character
of a long one; such a line cannot be taken, and nothing is read after it. Main statements: a
backspace undoes the typing of a cluster of less than 256 bytes (`Typing.back?_type?`), and a line
without backspaces is taken as it is (`typed?_eq_self`).
-/

namespace ScopeLisp.Text

def backspace : Char := '\x08'

def byteCount : List Char → Nat
  | [] => 0
  | c :: cs => c.utf8Size + byteCount cs

/-- A text, last character first, without its last `n` bytes; `none` if these end inside a character
or are not there. -/
def dropBytes? : Nat → List Char → Option (List Char)
  | 0, cs => some cs
  | _ + 1, [] => none
  | n + 1, c :: cs => if c.utf8Size ≤ n + 1 then dropBytes? (n + 1 - c.utf8Size) cs else none

theorem byteCount_append (xs ys : List Char) :
    byteCount (xs ++ ys) = byteCount xs + byteCount ys := by
  induction xs with
  | nil => simp [byteCount]
  | cons x xs ih => simp only [List.cons_append, byteCount, ih]; omega

theorem byteCount_reverse (cs : List Char) : byteCount cs.reverse = byteCount cs := by
  induction cs with
  | nil => rfl
  | cons c cs ih => simp only [List.reverse_cons, byteCount_append, ih, byteCount]; omega

theorem dropBytes?_zero (cs : List Char) : dropBytes? 0 cs = some cs := by
  rw [dropBytes?]

/-- The bytes of whole characters are these characters. -/
theorem dropBytes?_append (xs ys : List Char) :
    dropBytes? (byteCount xs) (xs ++ ys) = some ys := by
  induction xs with
  | nil => exact dropBytes?_zero ys
  | cons x xs ih =>
    obtain ⟨n, hn⟩ := Nat.exists_eq_succ_of_ne_zero (Nat.ne_of_gt x.utf8Size_pos)
    rw [byteCount, List.cons_append, hn, Nat.succ_add, dropBytes?, hn, if_pos (by omega),
      Nat.succ_sub_succ, Nat.add_sub_cancel_left, ih]

structure Typing where
  /-- What was typed, last character first. -/
  text : List Char := []
  /-- The numbers of bytes that backspaces take back, that of the next backspace first. -/
  sizes : List Nat := []
deriving DecidableEq, Repr

namespace Typing

def back? (t : Typing) : Option Typing :=
  match t.sizes with
  | [] => some t
  | n :: sizes => (dropBytes? n t.text).map fun text => { text, sizes }

/-- Types a cluster. Its size is kept in one byte, so that a backspace takes back the remainder
alone of a size of 256 and more. -/
def type? (t : Typing) (cluster : List Char) : Option Typing :=
  if cluster = [backspace] then t.back?
  else some { text := cluster.reverse ++ t.text, sizes := byteCount cluster % 256 :: t.sizes }

theorem back?_type? {cluster : List Char} (t : Typing) (h : cluster ≠ [backspace])
    (hsize : byteCount cluster < 256) : (t.type? cluster).bind back? = some t := by
  simp only [type?, if_neg h, Option.bind_some, back?, Nat.mod_eq_of_lt hsize]
  rw [← byteCount_reverse, dropBytes?_append]
  rfl

theorem text_foldlM_type? (t : Typing) {clusters : List (List Char)}
    (h : [backspace] ∉ clusters) :
    (clusters.foldlM type? t).map (·.text) = some (clusters.flatten.reverse ++ t.text) := by
  induction clusters generalizing t with
  | nil => rfl
  | cons cluster clusters ih =>
    simp only [List.mem_cons, not_or] at h
    simp [type?, if_neg (Ne.symm h.1), ih _ h.2]

end Typing

/-- What a line is after its backspaces; `none` if one of them ends inside a character. -/
def typed? (line : String) : Option String :=
  ((clusters line.toList).foldlM Typing.type? {}).map fun t => String.ofList t.text.reverse

theorem typed?_eq_self {line : String} (h : backspace ∉ line.toList) : typed? line = some line := by
  have hc : [backspace] ∉ clusters line.toList := fun hm =>
    h (by
      rw [← flatten_clusters line.toList, List.mem_flatten]
      exact ⟨_, hm, List.mem_singleton.2 rfl⟩)
  obtain ⟨t, ht, htext⟩ := Option.map_eq_some_iff.1 (Typing.text_foldlM_type? {} hc)
  simp [typed?, ht, htext, flatten_clusters]

end ScopeLisp.Text
