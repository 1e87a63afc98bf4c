import VoceChat.Foundations.Machine

/-!
# The bytes of a string

A string is kept as its UTF-8 bytes, so that it is determined by them and they by it
(`fromUtf8_eq_some`).
-/

namespace Utf8

open Machine

/-- `str::as_bytes`. -/
def toUtf8 (s : String) : Bytes := s.toByteArray.data.toList.map fun b ↦ Fin.ofNat 256 b.toNat

theorem ofNat_val_ofNat_toNat (b : UInt8) : UInt8.ofNat (Fin.ofNat 256 b.toNat).val = b := by
  show UInt8.ofNat (b.toNat % 256) = b
  rw [Nat.mod_eq_of_lt b.toNat_lt, UInt8.ofNat_toNat]

theorem ofNat_toNat_ofNat_val (b : Byte) :
    (Fin.ofNat 256 (UInt8.ofNat b.val).toNat : Byte) = b := by
  refine Fin.ext ?_
  show (b.val % 256) % 256 = b.val
  rw [Nat.mod_mod, Nat.mod_eq_of_lt b.isLt]

theorem fromUtf8_toUtf8 (s : String) : fromUtf8 (toUtf8 s) = some s := by
  have hbytes : ((toUtf8 s).map fun b ↦ UInt8.ofNat b.val) = s.toByteArray.data.toList := by
    rw [toUtf8, List.map_map]
    exact (List.map_congr_left fun b _ ↦ ofNat_val_ofNat_toNat b).trans (List.map_id _)
  have harray : (⟨((toUtf8 s).map fun b ↦ UInt8.ofNat b.val).toArray⟩ : ByteArray) =
      s.toByteArray := by
    rw [hbytes, Array.toArray_toList]
  rw [fromUtf8, harray, String.fromUTF8?, dif_pos s.isValidUTF8]
  rfl

/-- **A string is determined by its bytes**, and they by it. -/
theorem fromUtf8_eq_some {bytes : Bytes} {s : String} :
    fromUtf8 bytes = some s ↔ bytes = toUtf8 s := by
  constructor
  · intro h
    rw [fromUtf8, String.fromUTF8?] at h
    split at h
    · obtain rfl := Option.some.inj h
      show bytes = (bytes.map fun b ↦ UInt8.ofNat b.val).map fun b ↦ Fin.ofNat 256 b.toNat
      rw [List.map_map]
      exact ((List.map_congr_left fun b _ ↦ ofNat_toNat_ofNat_val b).trans (List.map_id _)).symm
    · cases h
  · rintro rfl
    exact fromUtf8_toUtf8 s

theorem toUtf8_inj {s s' : String} (h : toUtf8 s = toUtf8 s') : s = s' := by
  have hback := fromUtf8_toUtf8 s
  rw [h, fromUtf8_toUtf8] at hback
  exact (Option.some.inj hback).symm

theorem length_toUtf8 (s : String) : (toUtf8 s).length = s.utf8ByteSize := by
  rw [toUtf8, List.length_map]
  rfl

end Utf8
