import Mathlib.Logic.Equiv.List
import Pyverge.Py.Sorted
import Pyverge.Versioning.Versions

/-! Equality, order and hashes of identities.
The order of identities is that of version precedence and is total within one strategy. The hash of
a version leaves build metadata out as its precedence does, so hashes tell apart what `==` does.
-/

namespace Pyverge

section Order

variable {V : Type} [VersionValue V]

/-- The identities can be compared. -/
def NodeId.SameStrategy (left right : NodeId V) : Prop := left.strategy = right.strategy

/-- `==`, `<` and `>` of node identities are one total order within each version strategy. -/
theorem NodeId.totalOrder
    : Py.TotalOrder (@NodeId.SameStrategy V _) NodeId.eq NodeId.lt NodeId.gt := by
  apply Py.TotalOrder.of_cmp NodeId.cmp
  · exact ⟨fun _ => rfl, fun same => Eq.symm same, fun one two => Eq.trans one two⟩
  · intro left right same
    exact if_pos same
  · intro left right same
    exact if_pos same
  · intro left right same
    exact if_pos same

/-- Both ends of the edges can be compared. -/
def EdgeId.SameStrategies (left right : EdgeId V) : Prop :=
  left.source.SameStrategy right.source ∧ left.target.SameStrategy right.target

namespace EdgeId

variable {left right : EdgeId V} (same : left.SameStrategies right)

include same

theorem eq_eq : left.eq right = .ok (left.cmp right == .eq) := by
  have sources : left.source.strategy = right.source.strategy := same.1
  have targets : left.target.strategy = right.target.strategy := same.2
  simp only [EdgeId.eq, NodeId.eq, if_pos sources, if_pos targets, EdgeId.cmp, compareLex,
    compareOn, pure, bind, Except.pure, Except.bind]
  cases left.source.cmp right.source with
  | lt => rfl
  | gt => rfl
  | eq =>
      cases left.target.cmp right.target with
      | lt => rfl
      | gt => rfl
      | eq =>
          apply congrArg Except.ok
          rw [Bool.eq_iff_iff]
          simp

theorem lt_eq : left.lt right = .ok (left.cmp right == .lt) := by
  have sources : left.source.strategy = right.source.strategy := same.1
  have targets : left.target.strategy = right.target.strategy := same.2
  simp only [EdgeId.lt, NodeId.eq, NodeId.lt, if_pos sources, if_pos targets, EdgeId.cmp,
    compareLex, compareOn, pure, bind, Except.pure, Except.bind]
  cases left.source.cmp right.source with
  | lt => rfl
  | gt => rfl
  | eq => cases left.target.cmp right.target <;> rfl

theorem gt_eq : left.gt right = .ok (left.cmp right == .gt) := by
  have sources : left.source.strategy = right.source.strategy := same.1
  have targets : left.target.strategy = right.target.strategy := same.2
  simp only [EdgeId.gt, NodeId.eq, NodeId.gt, if_pos sources, if_pos targets, EdgeId.cmp,
    compareLex, compareOn, pure, bind, Except.pure, Except.bind]
  cases left.source.cmp right.source with
  | lt => rfl
  | gt => rfl
  | eq => cases left.target.cmp right.target <;> rfl

end EdgeId

/-- Edges whose ends can be compared are totally ordered by their identity tuples. -/
theorem EdgeId.totalOrder
    : Py.TotalOrder (@EdgeId.SameStrategies V _) EdgeId.eq EdgeId.lt EdgeId.gt := by
  apply Py.TotalOrder.of_cmp EdgeId.cmp
  · exact ⟨fun _ => ⟨rfl, rfl⟩, fun same => ⟨Eq.symm same.1, Eq.symm same.2⟩,
      fun one two => ⟨Eq.trans one.1 two.1, Eq.trans one.2 two.2⟩⟩
  · intro left right same
    exact EdgeId.eq_eq same
  · intro left right same
    exact EdgeId.lt_eq same
  · intro left right same
    exact EdgeId.gt_eq same

end Order

-----------------------------------------------------------------------------------------
-- Hashes
-----------------------------------------------------------------------------------------

/-- The built-in hashes of texts and tuples and that of a version value. A tuple is hashed from
the hashes of its items.
-/
structure Hashing (V : Type) where
  text : String → Int
  version : V → Int
  tuple : List Int → Int

/-- Different texts and different tuples have different hashes, and the hashes of versions agree with
their precedence.
-/
structure Hashing.Agrees {V : Type} [VersionValue V] (hashing : Hashing V) : Prop where
  text : Function.Injective hashing.text
  version : ∀ left right,
    hashing.version left = hashing.version right ↔ VersionValue.cmp left right = .eq
  tuple : Function.Injective hashing.tuple

section Hashes

variable {V : Type} (hashing : Hashing V)

/-- `NodeId.__hash__` -/
def NodeId.hash (id : NodeId V) : Int :=
  hashing.tuple [hashing.text id.nameSpace, hashing.text id.kind, hashing.version id.version]

/-- `EdgeId.__hash__` -/
def EdgeId.hash (edge : EdgeId V) : Int :=
  hashing.tuple [edge.source.hash hashing, edge.target.hash hashing,
    hashing.text edge.discriminator]

variable [VersionValue V]

/-- A lookup among the items of a dictionary: of the keys with the hash of the given one, the first
that is equal to it.
-/
def NodeId.probe {α : Type} (key : NodeId V)
    : List (NodeId V × α) → Except (Error V) (Option α)
  | [] => .ok none
  | (other, value) :: rest => do
      if other.hash hashing = key.hash hashing then
        if ← other.eq key then return some value
      NodeId.probe key rest

variable {hashing} (agrees : hashing.Agrees)

include agrees

theorem NodeId.hash_eq_iff {left right : NodeId V}
    : left.hash hashing = right.hash hashing ↔ left.cmp right = .eq := by
  rw [NodeId.hash, NodeId.hash, agrees.tuple.eq_iff, NodeId.cmp_eq_iff]
  simp only [List.cons.injEq, agrees.text.eq_iff, agrees.version, and_true]

theorem EdgeId.hash_eq_iff {left right : EdgeId V}
    : left.hash hashing = right.hash hashing ↔ left.cmp right = .eq := by
  rw [EdgeId.hash, EdgeId.hash, agrees.tuple.eq_iff]
  simp only [List.cons.injEq, agrees.text.eq_iff, NodeId.hash_eq_iff agrees, and_true,
    EdgeId.cmp, compareLex_eq_eq, compareOn, Std.LawfulEqOrd.compare_eq_iff_eq]

end Hashes

section Equal

variable {V : Type} [VersionValue V]

/-- `==` holds between identities of one strategy that are equal in precedence. -/
theorem NodeId.eq_eq_true {left right : NodeId V}
    : left.eq right = .ok true ↔ left.SameStrategy right ∧ left.cmp right = .eq := by
  unfold NodeId.eq
  constructor
  · intro answer
    split at answer
    case isTrue same => exact ⟨same, by simpa using answer⟩
    case isFalse => cases answer
  · intro given
    obtain ⟨same, equal⟩ := given
    have strategies : left.strategy = right.strategy := same
    rw [if_pos strategies, equal]
    rfl

/-- Edges that are equal have equal ends and one discriminator. -/
theorem EdgeId.cmp_of_eq {left right : EdgeId V} (equal : left.eq right = .ok true)
    : left.cmp right = .eq := by
  obtain ⟨sources, sourcesEqual, equal⟩ := Py.ok_bind_iff.mp equal
  cases sources with
  | false => cases equal
  | true =>
      obtain ⟨targets, targetsEqual, equal⟩ := Py.ok_bind_iff.mp equal
      cases targets with
      | false => cases equal
      | true =>
          have labels : left.discriminator = right.discriminator := by
            simpa [pure, Except.pure] using equal
          simp only [EdgeId.cmp, compareLex_eq_eq, compareOn, labels, Std.ReflCmp.compare_self,
            (NodeId.eq_eq_true.mp sourcesEqual).2, (NodeId.eq_eq_true.mp targetsEqual).2, and_self]

variable {hashing : Hashing V} (agrees : hashing.Agrees)

include agrees

/-- Equal node identities have equal hashes. -/
theorem NodeId.hash_eq_of_eq {left right : NodeId V} (equal : left.eq right = .ok true)
    : left.hash hashing = right.hash hashing :=
  (NodeId.hash_eq_iff agrees).mpr (NodeId.eq_eq_true.mp equal).2

/-- Equal edge identities have equal hashes. -/
theorem EdgeId.hash_eq_of_eq {left right : EdgeId V} (equal : left.eq right = .ok true)
    : left.hash hashing = right.hash hashing :=
  (EdgeId.hash_eq_iff agrees).mpr (EdgeId.cmp_of_eq equal)

/-- A lookup finds the first key that is equal in precedence, since it compares only keys of one
hash and these share a strategy.
-/
theorem NodeId.probe_eq {α : Type} {key : NodeId V}
    (strategies : ∀ other : NodeId V, other.cmp key = .eq → other.SameStrategy key)
    (items : List (NodeId V × α))
    : NodeId.probe hashing key items
      = .ok ((items.find? (fun item => item.1.cmp key == .eq)).map Prod.snd) := by
  induction items with
  | nil => rfl
  | cons item rest ih =>
      obtain ⟨other, value⟩ := item
      rw [NodeId.probe, List.find?_cons, ih]
      by_cases equal : other.cmp key = .eq
      · have same : other.eq key = .ok true :=
          NodeId.eq_eq_true.mpr ⟨strategies other equal, equal⟩
        rw [if_pos ((NodeId.hash_eq_iff agrees).mpr equal), same, equal]
        rfl
      · rw [if_neg (fun hashes => equal ((NodeId.hash_eq_iff agrees).mp hashes)),
          beq_eq_false_iff_ne.mpr equal]

end Equal

-----------------------------------------------------------------------------------------
-- Versions of both strategies
-----------------------------------------------------------------------------------------

/-- Versions of one precedence are of one strategy. -/
theorem NodeId.sameStrategy_of_cmp {left right : NodeId Version} (equal : left.cmp right = .eq)
    : left.SameStrategy right := by
  have versions : left.version.cmp right.version = .eq := (NodeId.cmp_eq_iff.mp equal).2.2
  unfold NodeId.SameStrategy NodeId.strategy
  cases one : left.version with
  | semver value =>
      cases other : right.version with
      | semver value => rfl
      | date value => simp [one, other, Version.cmp] at versions
  | date value =>
      cases other : right.version with
      | semver value => simp [one, other, Version.cmp] at versions
      | date value => rfl

/-- A hash that numbers all texts, all versions without their build metadata and all tuples. -/
def numberingHash : Hashing Version where
  text content := (Encodable.encode (content.toList.map Char.toNat) : Nat)
  version value := (Encodable.encode (value.release.chars.map Char.toNat) : Nat)
  tuple items := (Encodable.encode items : Nat)

theorem numberingHash_agrees : numberingHash.Agrees where
  text one other same := by
    have codes := Encodable.encode_injective (Int.ofNat.inj same)
    exact String.toList_inj.mp (List.map_injective_iff.mpr (fun _ _ => Char.toNat_inj.mp) codes)
  version one other := by
    constructor
    · intro same
      have codes := Encodable.encode_injective (Int.ofNat.inj same)
      have chars := List.map_injective_iff.mpr (fun _ _ => Char.toNat_inj.mp) codes
      exact Version.cmp_eq_iff.mpr
        (versionTexts.injective one.release other.release (congrArg String.ofList chars))
    · intro equal
      have releases : one.release = other.release := Version.cmp_eq_iff.mp equal
      simp only [numberingHash, releases]
  tuple one other same := Encodable.encode_injective (Int.ofNat.inj same)

end Pyverge
