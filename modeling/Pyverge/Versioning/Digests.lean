import Pyverge.Py.CanonicalJson
import Pyverge.Py.Lists
import Pyverge.Versioning.Edges

/-! What equal digests say about nodes, edges and hooks.
A faithful hasher reads a value in its canonical form and never confuses two canonical forms, so
a digest stands for exactly the content that was put under it.
-/

namespace Pyverge

variable {V : Type}

/-- Equal digests are digests of values with one canonical form. -/
def ContentHasher.Faithful (hasher : ContentHasher) : Prop :=
  ∀ left right, hasher.digest left = hasher.digest right ↔ left.canonical = right.canonical

/-- The canonical text itself as the digest. -/
def canonicalHasher : ContentHasher := ⟨Py.Json.render⟩

theorem canonicalHasher_faithful : canonicalHasher.Faithful :=
  fun _ _ => Py.Json.render_eq_iff

theorem canonical_texts {left right : List String}
    : (Py.Json.arr (left.map .str)).canonical = (Py.Json.arr (right.map .str)).canonical
      ↔ left = right := by
  have read := @Py.Json.canonical_arr_map_inj _ _ _ Py.Json.str
    (fun _ _ same => Py.Json.canonical_str_inj.mp same) id id left right
  simpa using read

-----------------------------------------------------------------------------------------
-- Identities
-----------------------------------------------------------------------------------------

section Identities

variable [VersionValue V] {hasher : ContentHasher}

/-- The identities read the same, part by part. -/
def NodeId.SameText (left right : NodeId V) : Prop :=
  left.nameSpace = right.nameSpace ∧ left.kind = right.kind
    ∧ VersionValue.str left.version = VersionValue.str right.version

theorem NodeId.digest_eq_iff (faithful : hasher.Faithful) {left right : NodeId V}
    : left.digest hasher = right.digest hasher ↔ left.SameText right := by
  rw [NodeId.digest, NodeId.digest, faithful]
  refine Iff.trans (Py.Json.canonical_obj_inj rfl (by simp)) ?_
  simp [NodeId.SameText, Py.Json.canonical]

/-- The endpoints and the discriminators read the same. -/
def EdgeId.SameText (left right : EdgeId V) : Prop :=
  left.source.SameText right.source ∧ left.target.SameText right.target
    ∧ left.discriminator = right.discriminator

theorem EdgeId.digest_eq_iff (faithful : hasher.Faithful) {left right : EdgeId V}
    : left.digest hasher = right.digest hasher ↔ left.SameText right := by
  have endpoint : ∀ first second : NodeId V,
      (Py.Json.obj [("namespace", .str first.nameSpace), ("kind", .str first.kind),
          ("version", .str (VersionValue.str first.version))]).canonical
        = (Py.Json.obj [("namespace", .str second.nameSpace), ("kind", .str second.kind),
          ("version", .str (VersionValue.str second.version))]).canonical
      ↔ first.SameText second := by
    intro first second
    refine Iff.trans (Py.Json.canonical_obj_inj rfl (by simp)) ?_
    simp [NodeId.SameText, Py.Json.canonical]
  rw [EdgeId.digest, EdgeId.digest, faithful]
  refine Iff.trans (Py.Json.canonical_obj_inj rfl (by simp)) ?_
  simp only [List.map_cons, List.map_nil, List.cons.injEq, and_true, endpoint,
    Py.Json.canonical_str_inj, EdgeId.SameText]

end Identities

-----------------------------------------------------------------------------------------
-- Hooks
-----------------------------------------------------------------------------------------

section Hooks

variable {hasher : ContentHasher}

/-- What a hook is made of, with configuration and metadata in canonical form. -/
def HookRef.content (hook : HookRef) : String × String × Py.Json × Py.Json :=
  (hook.providerId, hook.entityId, (Py.Json.obj hook.config).canonical,
    (Py.Json.obj hook.metadata).canonical)

/-- Equal digests of hooks are digests of the same content; leaving empty metadata out loses
nothing.
-/
theorem HookRef.digest_eq_iff (faithful : hasher.Faithful) {left right : HookRef}
    : left.digest hasher = right.digest hasher ↔ left.content = right.content := by
  have differ : ∀ {one other : List (String × Py.Json)}, one = [] → other ≠ [] →
      (Py.Json.obj one).canonical ≠ (Py.Json.obj other).canonical := by
    rintro one other rfl nonempty same
    exact nonempty (List.length_eq_zero_iff.mp (Py.Json.length_eq_of_canonical_obj same).symm)
  rw [HookRef.digest, HookRef.digest, faithful]
  simp only [HookRef.content, Prod.mk.injEq, List.isEmpty_iff]
  by_cases leftEmpty : left.metadata = [] <;> by_cases rightEmpty : right.metadata = []
  · simp only [leftEmpty, rightEmpty, if_true, and_true]
    refine Iff.trans (Py.Json.canonical_obj_inj rfl (by simp)) ?_
    simp
  · simp only [leftEmpty, rightEmpty, if_true, if_false]
    refine ⟨fun same => ?_, fun same => (differ leftEmpty rightEmpty ?_).elim⟩
    · have lengths := Py.Json.length_eq_of_canonical_obj same
      simp at lengths
    · rw [leftEmpty]
      exact same.2.2.2
  · simp only [leftEmpty, rightEmpty, if_true, if_false]
    refine ⟨fun same => ?_, fun same => (differ rightEmpty leftEmpty ?_).elim⟩
    · have lengths := Py.Json.length_eq_of_canonical_obj same
      simp at lengths
    · rw [rightEmpty]
      exact same.2.2.2.symm
  · simp only [leftEmpty, rightEmpty, if_false]
    refine Iff.trans (Py.Json.canonical_obj_inj rfl (by simp)) ?_
    simp

end Hooks

-----------------------------------------------------------------------------------------
-- Texts of identities
-----------------------------------------------------------------------------------------

/-- What the version packages promise of the text of a version. Nothing is said of other texts that
they parse, of which `versionTexts` has the dates `YYYY-MM-DD` only.
-/
structure VersionTexts (V : Type) [VersionValue V] : Prop where
  injective : ∀ left right : V, VersionValue.str left = VersionValue.str right → left = right
  noAt : ∀ version : V, '@' ∉ (VersionValue.str version).toList

section Texts

variable [VersionValue V]

theorem NodeId.SameText.eq (texts : VersionTexts V) {left right : NodeId V}
    (same : left.SameText right)
    : left = right := by
  obtain ⟨leftName, leftKind, leftVersion, _⟩ := left
  obtain ⟨rightName, rightKind, rightVersion, _⟩ := right
  obtain ⟨names, kinds, versions⟩ := same
  obtain rfl : leftName = rightName := names
  obtain rfl : leftKind = rightKind := kinds
  obtain rfl : leftVersion = rightVersion := texts.injective _ _ versions
  rfl

theorem EdgeId.SameText.eq (texts : VersionTexts V) {left right : EdgeId V}
    (same : left.SameText right)
    : left = right :=
  EdgeId.eq_of_parts (same.1.eq texts) (same.2.1.eq texts) same.2.2

/-- Inside one namespace the text of an identity tells it from all others. -/
theorem NodeId.eq_of_str (texts : VersionTexts V) {left right : NodeId V}
    (names : left.nameSpace = right.nameSpace) (same : left.str = right.str)
    : left = right := by
  have chars := congrArg String.toList same
  simp only [NodeId.str, String.toList_append, names, List.append_assoc] at chars
  have parts := List.append_cancel_left (List.append_cancel_left chars)
  obtain ⟨kinds, versions⟩ := Py.append_separator_inj (texts.noAt _) (texts.noAt _) parts
  exact NodeId.SameText.eq texts
    ⟨names, String.toList_inj.mp kinds, String.toList_inj.mp versions⟩

end Texts

-----------------------------------------------------------------------------------------
-- Contents
-----------------------------------------------------------------------------------------

variable [DecidableEq V] [VersionValue V] {hasher : ContentHasher}

/-- Nodes that read the same, with one model and the same fields and references; their order does
not count.
-/
def VersionNode.SameContent (left right : VersionNode V) : Prop :=
  left.id.str = right.id.str ∧ left.modelId = right.modelId
    ∧ left.fields.Perm right.fields
    ∧ (left.references.map NodeId.str).Perm (right.references.map NodeId.str)

/-- Equal digests of hashable nodes are digests of the same content. -/
theorem VersionNode.digest_eq_iff (faithful : hasher.Faithful) {left right : VersionNode V}
    {first second : String} (leftDigest : left.digest hasher = .ok first)
    (rightDigest : right.digest hasher = .ok second)
    : first = second ↔ left.SameContent right := by
  have payload : ∀ {node : VersionNode V} {digest : String}, node.digest hasher = .ok digest →
      digest = hasher.digest (.obj [
        ("id", .str node.id.str),
        ("model", .str node.modelId),
        ("fields", .arr ((node.fields.insertionSort (· ≤ ·)).map .str)),
        ("references", .arr (((node.references.map NodeId.str).insertionSort (· ≤ ·)).map .str))])
      := by
    intro node digest hashed
    unfold VersionNode.digest VersionNode.contentPayload at hashed
    split at hashed
    · cases hashed
    · exact (Except.ok.inj hashed).symm
  rw [payload leftDigest, payload rightDigest, faithful]
  refine Iff.trans (Py.Json.canonical_obj_inj rfl (by simp)) ?_
  simp only [List.map_cons, List.map_nil, List.cons.injEq, and_true, Py.Json.canonical_str_inj,
    canonical_texts, Py.insertionSort_eq_iff, VersionNode.SameContent]

/-- Executable edges that read the same, between endpoints of the same content, with one diff and
one migration.
-/
def VersionEdge.SameContent (left right : VersionEdge V) : Prop :=
  left.id.str = right.id.str
    ∧ left.source.SameContent right.source ∧ left.target.SameContent right.target
    ∧ left.discriminator = right.discriminator
    ∧ left.diff.fingerprintPayload.canonical = right.diff.fingerprintPayload.canonical
    ∧ left.migration = right.migration

/-- Equal digests of hashable edges are digests of the same content. -/
theorem VersionEdge.digest_eq_iff (faithful : hasher.Faithful) {left right : VersionEdge V}
    {first second : String} (leftDigest : left.digest hasher = .ok first)
    (rightDigest : right.digest hasher = .ok second)
    : first = second ↔ left.SameContent right := by
  have payload : ∀ {edge : VersionEdge V} {digest : String}, edge.digest hasher = .ok digest →
      ∃ source target, edge.source.digest hasher = .ok source
        ∧ edge.target.digest hasher = .ok target
        ∧ digest = hasher.digest (.obj [
          ("id", .str edge.id.str),
          ("source", .str source),
          ("target", .str target),
          ("discriminator", .str edge.discriminator),
          ("diff", edge.diff.fingerprintPayload),
          ("migration", .obj [
            ("strategy", .str edge.migration.strategy),
            ("identity", .str edge.migration.identity)])]) := by
    intro edge digest hashed
    unfold VersionEdge.digest VersionEdge.contentPayload at hashed
    cases source : edge.source.digest hasher with
    | error raised => simp [source, bind, Except.bind, Except.map] at hashed
    | ok sourceDigest =>
        cases target : edge.target.digest hasher with
        | error raised => simp [source, target, bind, Except.bind, Except.map] at hashed
        | ok targetDigest =>
            simp only [source, target, bind, Except.bind, pure, Except.pure, Except.map] at hashed
            exact ⟨_, _, rfl, rfl, (Except.ok.inj hashed).symm⟩
  have descriptor : ∀ one other : MigrationDescriptor,
      (Py.Json.obj [("strategy", .str one.strategy), ("identity", .str one.identity)]).canonical
        = (Py.Json.obj [("strategy", .str other.strategy),
          ("identity", .str other.identity)]).canonical
      ↔ one = other := by
    intro one other
    refine Iff.trans (Py.Json.canonical_obj_inj rfl (by simp)) ?_
    cases one
    cases other
    simp [Py.Json.canonical]
  obtain ⟨leftSource, leftTarget, hashedSource, hashedTarget, rfl⟩ := payload leftDigest
  obtain ⟨rightSource, rightTarget, otherSource, otherTarget, rfl⟩ := payload rightDigest
  rw [faithful]
  refine Iff.trans (Py.Json.canonical_obj_inj rfl (by simp)) ?_
  simp only [List.map_cons, List.map_nil, List.cons.injEq, and_true, Py.Json.canonical_str_inj,
    descriptor, VersionNode.digest_eq_iff faithful hashedSource otherSource,
    VersionNode.digest_eq_iff faithful hashedTarget otherTarget, VersionEdge.SameContent]

-----------------------------------------------------------------------------------------
-- Contents that can be hashed
-----------------------------------------------------------------------------------------

/-- The content of the edge can be hashed: both endpoints name their models. -/
def VersionEdge.Hashable (edge : VersionEdge V) : Prop :=
  edge.source.modelId ≠ "" ∧ edge.target.modelId ≠ ""

theorem VersionNode.exists_digest {node : VersionNode V} {hasher : ContentHasher}
    : (∃ digest, node.digest hasher = .ok digest) ↔ node.modelId ≠ "" := by
  unfold VersionNode.digest VersionNode.contentPayload
  by_cases unnamed : node.modelId = "" <;> simp [unnamed, Except.map]

theorem VersionEdge.exists_digest {edge : VersionEdge V} {hasher : ContentHasher}
    : (∃ digest, edge.digest hasher = .ok digest) ↔ edge.Hashable := by
  have names := fun node : VersionNode V => @VersionNode.exists_digest V _ _ node hasher
  rw [VersionEdge.Hashable, ← names, ← names]
  unfold VersionEdge.digest VersionEdge.contentPayload
  cases edge.source.digest hasher <;> cases edge.target.digest hasher <;>
    simp [bind, Except.bind, pure, Except.pure, Except.map]

theorem VersionEdge.Hashable.toOption_ne_none {edge : VersionEdge V} (hashable : edge.Hashable)
    (hasher : ContentHasher)
    : (edge.digest hasher).toOption ≠ none := by
  obtain ⟨digest, hashed⟩ := (@VersionEdge.exists_digest _ _ _ _ hasher).mpr hashable
  simp [hashed, Except.toOption]

end Pyverge
