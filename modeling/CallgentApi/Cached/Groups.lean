import CallgentApi.Lib.Chunks
import CallgentApi.Cached.Service

/-!
# The groups of observers

`_group` counts the distinct keys and cuts chunks from all of them.
-/

namespace CallgentApi
namespace Cached

open Js Event Invoke Effect Chunks

variable {tau : Type}

structure GroupedOnce (keys : List Text) (chunkSize : Nat)
    (groups : List (List Text)) : Prop where
  once : groups.flatten.Nodup
  all : forall key, key ∈ groups.flatten <-> key ∈ keys
  small : forall keys, keys ∈ groups -> keys.length ≤ chunkSize

def ResumedOnce (keys : List Text) (response : PendingOrResponse)
    (w : CachedWorld tau) : Prop :=
  exists notified : List Text,
    (exec (notifyObservers keys response) w).2.resumed =
        w.resumed ++ notified.map (fun key => (key, response.value)) ∧
      notified.Nodup ∧ forall key, key ∈ notified <-> key ∈ keys

/-- No key is repeated, or the chunks are filled by the distinct keys before
one is. -/
def FillsChunks (keys : List Text) (chunkSize : Nat) : Prop :=
  keys.Nodup ∨ (chunkSize ∣ keys.dedup.length ∧
    (keys.take keys.dedup.length).Nodup)

theorem group_eq_chunks (keys : List Text) (chunkSize : Nat) :
    group keys chunkSize = chunks keys chunkSize
      ((keys.dedup.length + (chunkSize - 1)) / chunkSize) :=
  rfl

theorem flatten_group (keys : List Text) (chunkSize : Nat) :
    (group keys chunkSize).flatten =
      keys.take (room keys.dedup.length chunkSize) := by
  rw [group_eq_chunks, flatten_chunks]
  rfl

theorem flatten_group_once_iff {keys : List Text} {chunkSize : Nat}
    (h : 0 < chunkSize) :
    ((group keys chunkSize).flatten.Nodup ∧
      forall key, key ∈ (group keys chunkSize).flatten <-> key ∈ keys) <->
      FillsChunks keys chunkSize := by
  have hroom := le_room h keys.dedup.length
  rw [flatten_group, front_once_iff hroom, room_eq_iff h]
  unfold FillsChunks
  constructor
  · intro hor
    rcases hor with hnodup | ⟨hdvd, hnodup⟩
    · exact Or.inl hnodup
    · rw [(room_eq_iff h _).mpr hdvd] at hnodup
      exact Or.inr ⟨hdvd, hnodup⟩
  · intro hor
    rcases hor with hnodup | ⟨hdvd, hnodup⟩
    · exact Or.inl hnodup
    · rw [(room_eq_iff h _).mpr hdvd]
      exact Or.inr ⟨hdvd, hnodup⟩

theorem resumedOnce_iff (keys : List Text) (response : PendingOrResponse)
    (w : CachedWorld tau) :
    ResumedOnce keys response w <->
      (notifiedKeys keys).Nodup ∧
        forall key, key ∈ notifiedKeys keys <-> key ∈ keys := by
  have hexec : (exec (notifyObservers keys response) w).2.resumed =
      w.resumed ++
        (notifiedKeys keys).map (fun key => (key, response.value)) :=
    rfl
  unfold ResumedOnce
  rw [hexec]
  constructor
  · intro hresumed
    rcases hresumed with ⟨notified, heq, honce⟩
    have hinjective : Function.Injective
        (fun key : Text => (key, response.value)) := by
      intro key other hpair
      exact (Prod.mk.inj hpair).left
    rw [hinjective.list_map (List.append_cancel_left heq)]
    exact honce
  · intro honce
    exact ⟨notifiedKeys keys, rfl, honce⟩

/-- The groups hold each key once, and notify each observer once, exactly if no
key is repeated or the distinct ones fill the groups first. -/
theorem grouped_once_iff {keys : List Text} {chunkSize : Nat}
    (h : 0 < chunkSize) (response : PendingOrResponse) (w : CachedWorld tau) :
    (GroupedOnce keys chunkSize (group keys chunkSize) <->
        FillsChunks keys chunkSize) ∧
      (ResumedOnce keys response w <-> FillsChunks keys 3) := by
  constructor
  · rw [← flatten_group_once_iff h]
    constructor
    · intro hgrouped
      exact ⟨hgrouped.once, hgrouped.all⟩
    · intro honce
      refine ⟨honce.left, honce.right, ?_⟩
      intro chunk hchunk
      rw [group_eq_chunks] at hchunk
      exact length_le_of_mem_chunks hchunk
  · rw [resumedOnce_iff, ← flatten_group_once_iff (Nat.succ_pos 2)]
    rfl

/-! ## Four observers, two of one key -/

def letters (text : String) : List Text :=
  text.toList.map fun c => [c]

def noRows : CachedWorld Unit := ⟨.empty, [], ()⟩

theorem grouped_letters :
    (GroupedOnce (letters "abcab") 3 (group (letters "abcab") 3) <->
        FillsChunks (letters "abcab") 3) ∧
      (ResumedOnce (letters "abcab") ⟨none, none, none⟩ noRows <->
        FillsChunks (letters "abcab") 3) :=
  grouped_once_iff (Nat.succ_pos 2) _ noRows

/-- One of them is notified twice and another one never. -/
theorem not_grouped_once :
    group (letters "aabc") 3 = [letters "aab"] ∧
      ¬ GroupedOnce (letters "aabc") 3 (group (letters "aabc") 3) ∧
      notifiedKeys (letters "aabc") = letters "aab" := by
  have hgroup : group (letters "aabc") 3 = [letters "aab"] := rfl
  refine ⟨hgroup, ?_, rfl⟩
  intro hgrouped
  rw [hgroup] at hgrouped
  have hlast := (hgrouped.all ['c']).mpr (by decide)
  exact absurd hlast (by decide)

end Cached
end CallgentApi
