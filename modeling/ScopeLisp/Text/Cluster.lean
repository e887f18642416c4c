import ScopeLisp.Text.ClusterBreak

/-!
# Clusters

A text divided into what a reader takes for its characters: the extended grapheme clusters of
Unicode. A letter goes with its marks, the letters of a Hangul syllable are together, and so are two
regional letters, pictographs around a joiner, and consonants that a linker ties. Main statements:
the clusters are the text again (`flatten_clusters`), and none of them is empty
(`nil_notMem_clusters`).
-/

namespace ScopeLisp.Text

/-- Whether a text, last character first, ends with a pictograph and marks on it. -/
def endsInPictograph : List Char → Bool
  | [] => false
  | c :: before =>
    match ClusterBreak.ofChar c with
    | .extend => endsInPictograph before
    | .pictograph => true
    | _ => false

/-- Whether a text, last character first, ends with a consonant and marks on it, a linker among
them; `linked` says that a linker was met already. The non-joiner takes the tie away. -/
def endsInTie (linked : Bool) : List Char → Bool
  | [] => false
  | c :: before =>
    if ClusterBreak.isLinker c then endsInTie true before
    else
      match ClusterBreak.ofChar c with
      | .extend => c ≠ '\u200C' && endsInTie linked before
      | .joiner => endsInTie linked before
      | .consonant => linked
      | _ => false

/-- The number of regional letters at the end of a text, last character first. -/
def regionalCount (before : List Char) : Nat :=
  (before.takeWhile fun c => ClusterBreak.ofChar c = .regional).length

/-- Whether a cluster, last character first, goes on with `c`. Any character begins one. -/
def goesOn (cluster : List Char) (c : Char) : Bool :=
  match cluster with
  | [] => true
  | last :: before =>
    match ClusterBreak.ofChar last, ClusterBreak.ofChar c with
    | .carriageReturn, .lineFeed => true
    | .carriageReturn, _ | .lineFeed, _ | .control, _ => false
    | _, .carriageReturn | _, .lineFeed | _, .control => false
    | .leading, .leading | .leading, .vowel => true
    | .leading, .openSyllable | .leading, .closedSyllable => true
    | .openSyllable, .vowel | .openSyllable, .trailing | .vowel, .vowel | .vowel, .trailing => true
    | .closedSyllable, .trailing | .trailing, .trailing => true
    | _, .extend | _, .joiner | _, .spacing | .prepended, _ => true
    | _, .consonant => endsInTie false cluster
    | .joiner, .pictograph => endsInPictograph before
    | .regional, .regional => regionalCount before % 2 = 0
    | _, _ => false

/-- The clusters of a text of whose first one `cluster` was read already, last character first. -/
def clustersFrom (cluster : List Char) : List Char → List (List Char)
  | [] => if cluster = [] then [] else [cluster.reverse]
  | c :: cs =>
    if goesOn cluster c then clustersFrom (c :: cluster) cs
    else cluster.reverse :: clustersFrom [c] cs

def clusters (cs : List Char) : List (List Char) := clustersFrom [] cs

theorem flatten_clustersFrom (cluster cs : List Char) :
    (clustersFrom cluster cs).flatten = cluster.reverse ++ cs := by
  induction cs generalizing cluster with
  | nil => unfold clustersFrom; split <;> simp_all
  | cons c cs ih => unfold clustersFrom; split <;> simp [ih]

/-- No character is lost and none is moved. -/
theorem flatten_clusters (cs : List Char) : (clusters cs).flatten = cs :=
  flatten_clustersFrom [] cs

theorem nil_notMem_clustersFrom (cluster cs : List Char) : [] ∉ clustersFrom cluster cs := by
  induction cs generalizing cluster with
  | nil =>
    unfold clustersFrom
    split <;> simp_all
  | cons c cs ih =>
    unfold clustersFrom
    split
    · exact ih _
    · rename_i hg
      have : cluster ≠ [] := by rintro rfl; exact hg rfl
      simp [ih, this]

theorem nil_notMem_clusters (cs : List Char) : [] ∉ clusters cs :=
  nil_notMem_clustersFrom [] cs

end ScopeLisp.Text
