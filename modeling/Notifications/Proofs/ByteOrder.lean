import Notifications.Proofs.Utf8
/-! The order of texts by their characters is the order of their bytes in UTF-8. -/
namespace Notifications.Text

variable {c d : Char} {cs ds : List Char} {r r' : List UInt8}

/-- The first byte decides, unless it is the same. -/
theorem cons_lt_cons {m n : Nat} (hn : n < 256) (h : m ≤ n) (hr : m = n → r < r') :
    UInt8.ofNat m :: r < UInt8.ofNat n :: r' := by
  rcases Nat.lt_or_eq_of_le h with hlt | heq
  · refine List.cons_lt_cons_iff.2 (.inl ?_)
    rwa [UInt8.lt_iff_toNat_lt, UInt8.toNat_ofNat_of_lt' (Nat.lt_trans hlt hn),
      UInt8.toNat_ofNat_of_lt' hn]
  · exact List.cons_lt_cons_iff.2 (.inr ⟨congrArg UInt8.ofNat heq, hr heq⟩)

/-- The smaller of two characters has the smaller bytes, whatever follows. -/
theorem utf8EncodeChar_append_lt (h : c < d) (r r' : List UInt8) :
    String.utf8EncodeChar c ++ r < String.utf8EncodeChar d ++ r' := by
  have hlt : c.toNat < d.toNat := h
  have hc := toNat_scalar c
  have hd := toNat_scalar d
  have hcval : c.val.toNat = c.toNat := rfl
  have hdval : d.val.toNat = d.toNat := rfl
  simp only [String.utf8EncodeChar, hcval, hdval]
  -- A character of more bytes has the larger lead byte; among as many, the first byte that differs
  -- decides.
  split
  · split
    · exact cons_lt_cons (by omega) (by omega) fun _ => by omega
    split
    · exact cons_lt_cons (by omega) (by omega) fun _ => by omega
    split
    · exact cons_lt_cons (by omega) (by omega) fun _ => by omega
    · exact cons_lt_cons (by omega) (by omega) fun _ => by omega
  rw [if_neg (by omega : ¬ d.toNat ≤ 0x7f)]
  split
  · split
    · exact cons_lt_cons (by omega) (by omega) fun _ =>
        cons_lt_cons (by omega) (by omega) fun _ => by omega
    split
    · exact cons_lt_cons (by omega) (by omega) fun _ => by omega
    · exact cons_lt_cons (by omega) (by omega) fun _ => by omega
  rw [if_neg (by omega : ¬ d.toNat ≤ 0x7ff)]
  split
  · split
    · exact cons_lt_cons (by omega) (by omega) fun _ => cons_lt_cons (by omega) (by omega) fun _ =>
        cons_lt_cons (by omega) (by omega) fun _ => by omega
    · exact cons_lt_cons (by omega) (by omega) fun _ => by omega
  rw [if_neg (by omega : ¬ d.toNat ≤ 0xffff)]
  exact cons_lt_cons (by omega) (by omega) fun _ => cons_lt_cons (by omega) (by omega) fun _ =>
    cons_lt_cons (by omega) (by omega) fun _ => cons_lt_cons (by omega) (by omega) fun _ => by omega

theorem encodeUtf8_lt (h : cs < ds) : encodeUtf8 cs < encodeUtf8 ds := by
  induction h with
  | @nil d ds =>
    obtain ⟨b, bs, hb⟩ := List.exists_cons_of_ne_nil (String.utf8EncodeChar_ne_nil (c := d))
    rw [encodeUtf8, encodeUtf8, List.flatMap_cons, hb]
    exact List.nil_lt_cons _ _
  | rel h => exact utf8EncodeChar_append_lt h _ _
  | cons _ ih => exact List.append_left_lt ih

variable {a b : String}

theorem byteLE_of_lt (h : a < b) : ByteLE a b := List.le_of_lt (encodeUtf8_lt h)

theorem ByteLE.antisymm (h : ByteLE a b) (h' : ByteLE b a) : a = b := by
  have hge : ¬ b < a := fun hlt => h (encodeUtf8_lt hlt)
  have hle : ¬ a < b := fun hlt => h' (encodeUtf8_lt hlt)
  exact String.le_antisymm hge hle

theorem ByteLE.trans {c : String} (hab : ByteLE a b) (hbc : ByteLE b c) : ByteLE a c :=
  List.le_trans hab hbc

theorem ByteLE.total (a b : String) : ByteLE a b ∨ ByteLE b a := List.le_total _ _

variable {texts : List String}

theorem sortByBytes_perm (texts : List String) : (sortByBytes texts).Perm texts :=
  List.mergeSort_perm _ _

theorem pairwise_sortByBytes (texts : List String) : (sortByBytes texts).Pairwise ByteLE := by
  have htrans : ∀ a b c : String, decide (ByteLE a b) = true → decide (ByteLE b c) = true →
      decide (ByteLE a c) = true :=
    fun _ _ _ hab hbc => decide_eq_true ((of_decide_eq_true hab).trans (of_decide_eq_true hbc))
  have htotal : ∀ a b : String, (decide (ByteLE a b) || decide (ByteLE b a)) = true := by
    intro a b
    rw [Bool.or_eq_true, decide_eq_true_iff, decide_eq_true_iff]
    exact ByteLE.total a b
  exact (List.pairwise_mergeSort htrans htotal texts).imp of_decide_eq_true

/-- Of all ways to order some texts there is one in the order of their bytes. -/
theorem eq_sortByBytes {sorted : List String} (hperm : sorted.Perm texts)
    (hsorted : sorted.Pairwise ByteLE) : sorted = sortByBytes texts :=
  (hperm.trans (sortByBytes_perm texts).symm).eq_of_pairwise (fun _ _ _ _ => ByteLE.antisymm)
    hsorted (pairwise_sortByBytes texts)

end Notifications.Text
