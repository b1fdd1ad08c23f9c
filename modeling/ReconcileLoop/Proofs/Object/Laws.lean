import ReconcileLoop.Object.Manifest
import ReconcileLoop.Proofs.App.Codec

namespace ReconcileLoop

/-! # Metadata and status are apart

What a store does to an object is to stamp its metadata and to give it another status. The metadata
of an object is replaced as a whole, and whatever becomes of its status, the metadata stays.
-/

class LawfulResource (α : Type) [Resource α] : Prop where
  withMetadata_withMetadata (object : α) (first second : Metadata) :
    Resource.withMetadata (Resource.withMetadata object first) second =
      Resource.withMetadata object second
  metadata_replaceStatus {current given updated : α}
    (replaced : Resource.replaceStatus current given = some updated) :
    Resource.metadata updated = Resource.metadata current

namespace Manifest

variable {type : BuiltIn}

/-- Whatever the content says, the metadata is found where it belongs. -/
theorem get?_metadata (manifest : Manifest type) :
    manifest.encode.get? "metadata" = some manifest.metadata.toJson := by
  have header : Json.lookup "metadata"
      [("apiVersion", Json.str type.kind.apiVersion), ("kind", .str type.kind.name),
        ("metadata", manifest.metadata.toJson)] = some manifest.metadata.toJson := rfl
  rw [encode, Json.ofMembers, Json.get?, Json.normalizeMembers, List.foldl_append,
    Json.lookup_foldl_insertMember _ _ (by simp), header]
  rfl

theorem metadata_of_decode {value : Json} {manifest : Manifest type} {metadata : Metadata}
    (read : decode type value = some manifest)
    (held : value.get? "metadata" = some metadata.toJson) : manifest.metadata = metadata := by
  have written : value.get? "metadata" = (some metadata).map Metadata.toJson := held
  have found : value.optional? Metadata.ofJson? "metadata" = some (some metadata) :=
    Json.optional?_of_get? Metadata.toJson written Metadata.ofJson?_toJson
      fun _ => Json.ofOptions_ne_null _
  simp only [decode, found, Option.bind_eq_bind, Option.bind_eq_some_iff] at read
  obtain ⟨_, _, _, same, _, _, content, _, made⟩ := read
  cases same
  cases made
  rfl

instance : LawfulResource (Manifest type) where
  withMetadata_withMetadata _ _ _ := rfl
  metadata_replaceStatus {current given updated} replaced := by
    obtain ⟨members, written⟩ : ∃ members, current.encode = .obj members := ⟨_, rfl⟩
    have same : Resource.encode current = .obj members := written
    rw [Resource.replaceStatus, same] at replaced
    refine metadata_of_decode replaced ?_
    have held := current.get?_metadata
    rw [written, Json.get?] at held
    rw [Json.get?, Json.lookup_insertMember, if_neg (by simp), held]
    rfl

end Manifest

instance {μ : Type} [ObjectMeta μ] [LawfulObjectMeta μ] : LawfulResource (App μ) where
  withMetadata_withMetadata app first second := by
    change ({ app with metadata := ObjectMeta.update (ObjectMeta.update app.metadata first) second } :
      App μ) = _
    rw [LawfulObjectMeta.update_update]
    rfl
  metadata_replaceStatus {current given updated} replaced := by
    rw [App.replaceStatus_eq] at replaced
    cases replaced
    rfl

end ReconcileLoop
