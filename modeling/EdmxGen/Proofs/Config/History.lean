import EdmxGen.Config.Basic
import Mathlib.Data.List.Dedup
import Mathlib.Data.List.Induction

/-!
# The order of the history

The history is cut at its capacity after every use of an address. An address that was cut off can
come again, yet the history is what one cut at the end makes of all addresses in the order of their
last use (`foldl_remember_latest`): what one use does to the front of that order depends on its
front only (`take_cons_filter_take`).
-/

namespace EdmxGen

/-- The addresses in the order of their last use, the last one first: those that were used, and
behind them the older ones as they were. Of equal entries `List.dedup` keeps the last one. -/
def latest (old uses : List String) : List String :=
  uses.dedup.reverse ++ old.filter fun address => address ∉ uses

variable {old uses : List String} {config : Config}

/-! ## The order of last use -/

theorem dedup_concat (uses : List String) (address : String) :
    (uses ++ [address]).dedup = (uses.dedup.filter fun known => known != address) ++ [address] := by
  induction uses with
  | nil => rfl
  | cons use uses ih =>
    by_cases hmem : use ∈ uses
    · rw [List.cons_append, List.dedup_cons_of_mem (List.mem_append_left _ hmem),
        List.dedup_cons_of_mem hmem, ih]
    · rw [List.cons_append, List.dedup_cons_of_notMem hmem]
      by_cases heq : use = address
      · rw [heq, List.dedup_cons_of_mem (List.mem_append_right _ List.mem_cons_self), ih,
          List.filter_cons_of_neg (by simp)]
      · have hnew : use ∉ uses ++ [address] := by simp [hmem, heq]
        rw [List.dedup_cons_of_notMem hnew, ih, List.filter_cons_of_pos (by simpa using heq),
          List.cons_append]

/-- One more use takes an address from its place to the front. -/
theorem latest_concat (old uses : List String) (address : String) :
    latest old (uses ++ [address]) =
      address :: (latest old uses).filter fun known => known != address := by
  have hold : (old.filter fun known => known ∉ uses ++ [address]) =
      (old.filter fun known => known ∉ uses).filter fun known => known != address := by
    rw [List.filter_filter]
    refine List.filter_congr fun known _ => ?_
    rw [Bool.eq_iff_iff]
    simp [and_comm]
  unfold latest
  rw [dedup_concat, hold, List.reverse_append, List.filter_append, List.filter_reverse]
  rfl

example : latest ["x", "y"] ["a", "y", "b", "a"] = ["a", "b", "y", "x"] := by decide

theorem nodup_latest (h : old.Nodup) (uses : List String) : (latest old uses).Nodup := by
  refine List.Nodup.append (List.nodup_reverse.2 (List.nodup_dedup uses)) (h.filter _) ?_
  intro address hused hold
  rw [List.mem_reverse, List.mem_dedup] at hused
  simpa [hused] using (List.mem_filter.1 hold).2

theorem head?_latest (old uses : List String) (address : String) :
    (latest old (uses ++ [address])).head? = some address := by
  rw [latest_concat, List.head?_cons]

/-! ## Cutting before or after a use -/

theorem take_filter_take {l : List String} (hl : l.Nodup) (address : String) (n : Nat) :
    ((l.take (n + 1)).filter fun known => known != address).take n =
      (l.filter fun known => known != address).take n := by
  induction l generalizing n with
  | nil => rfl
  | cons known l ih =>
    obtain ⟨hknown, hl⟩ := List.nodup_cons.1 hl
    rw [List.take_succ_cons]
    by_cases heq : known = address
    · -- the address stands here and nowhere else
      have hall : ∀ other ∈ l, (other != address) = true := by
        intro other hother
        rw [bne_iff_ne]
        rintro rfl
        exact hknown (heq ▸ hother)
      rw [List.filter_cons_of_neg (by simpa using heq), List.filter_cons_of_neg (by simpa using heq),
        List.filter_eq_self.2 hall,
        List.filter_eq_self.2 fun other hother => hall other (List.mem_of_mem_take hother),
        List.take_take, Nat.min_self]
    · rw [List.filter_cons_of_pos (by simpa using heq), List.filter_cons_of_pos (by simpa using heq)]
      cases n with
      | zero => rfl
      | succ n => rw [List.take_succ_cons, List.take_succ_cons, ih hl]

/-- A cut before a use does not show behind the cut after it. -/
theorem take_cons_filter_take {l : List String} (hl : l.Nodup) (address : String) (n : Nat) :
    (address :: (l.take n).filter fun known => known != address).take n =
      (address :: l.filter fun known => known != address).take n := by
  cases n with
  | zero => rfl
  | succ n => rw [List.take_succ_cons, List.take_succ_cons, take_filter_take hl]

/-! ## Uses one after the other -/

theorem foldl_remember_settings (config : Config) (addresses : List String) :
    (addresses.foldl Config.remember config).settings = config.settings := by
  induction addresses generalizing config with
  | nil => rfl
  | cons address addresses ih => rw [List.foldl_cons, ih]; rfl

theorem foldl_remember_capacity (config : Config) (uses : List String) :
    (uses.foldl Config.remember config).capacity = config.capacity := by
  unfold Config.capacity
  rw [foldl_remember_settings]

theorem recentAddresses_remember (config : Config) (address : String) :
    (config.remember address).recentAddresses =
      (address :: config.recentAddresses.filter fun known => known != address).take
        config.capacity := rfl

theorem recentAddresses_foldl (hold : config.recentAddresses.Nodup) (uses : List String)
    (address : String) :
    ((uses ++ [address]).foldl Config.remember config).recentAddresses =
      (latest config.recentAddresses (uses ++ [address])).take config.capacity := by
  -- The uses are taken from the end, so that the history before the last one is the one to cut.
  induction uses using List.reverseRecOn generalizing address with
  | nil =>
    have hnone : latest config.recentAddresses [] = config.recentAddresses := by simp [latest]
    rw [latest_concat, hnone]
    rfl
  | append_singleton uses use ih =>
    rw [List.foldl_concat, recentAddresses_remember, ih, foldl_remember_capacity,
      take_cons_filter_take (nodup_latest hold _), ← latest_concat]

/-- What stands before a kept address is kept. -/
theorem mem_take_of_idxOf_lt {l : List String} {n : Nat} {later earlier : String}
    (hbefore : l.idxOf later < l.idxOf earlier) (h : earlier ∈ l.take n) : later ∈ l.take n := by
  have hearlier : earlier ∈ l := List.mem_of_mem_take h
  have hlater : later ∈ l := List.idxOf_lt_length_iff.1
    (Nat.lt_trans hbefore (List.idxOf_lt_length_of_mem hearlier))
  rw [List.mem_take_iff_idxOf_lt hearlier] at h
  rw [List.mem_take_iff_idxOf_lt hlater]
  exact Nat.lt_trans hbefore h

/-- After one use or more the history is the order of last use, cut at the number of places, of
which there is at least one. It holds no address twice and the last one used first, it drops nothing
that was used later than something it keeps, and the settings are as they were. -/
theorem foldl_remember_latest (hold : config.recentAddresses.Nodup) (huses : uses ≠ []) :
    let after := uses.foldl Config.remember config
    let order := latest config.recentAddresses uses
    after.recentAddresses = order.take (max config.settings.maxRecent.toNat 1) ∧
      after.recentAddresses.Nodup ∧
      after.recentAddresses.head? = uses.getLast? ∧
      (∀ later earlier, order.idxOf later < order.idxOf earlier →
        earlier ∈ after.recentAddresses → later ∈ after.recentAddresses) ∧
      after.settings = config.settings := by
  intro after order
  obtain ⟨before, address, rfl⟩ := (List.eq_nil_or_concat' uses).resolve_left huses
  have hrecent : after.recentAddresses = order.take config.capacity :=
    recentAddresses_foldl hold before address
  have hcapacity : config.capacity ≠ 0 := by
    unfold Config.capacity
    omega
  refine ⟨hrecent, ?_, ?_, ?_, foldl_remember_settings _ _⟩
  · rw [hrecent]
    exact (nodup_latest hold _).sublist (List.take_sublist _ _)
  · rw [hrecent, List.head?_take, if_neg hcapacity, head?_latest, List.getLast?_concat]
  · rw [hrecent]
    exact fun _ _ => mem_take_of_idxOf_lt

/-- A history of three addresses that has two places from now on. -/
def crowded : Config := { recentAddresses := ["x", "y", "z"], settings := { maxRecent := 2 } }

/-- An address that was cut off comes back when it is used again. -/
theorem foldl_remember_latest_crowded :
    crowded.recentAddresses.Nodup ∧
      (["a", "b", "a", "c", "y", "b"].foldl Config.remember crowded).recentAddresses = ["b", "y"] ∧
      (["a", "b", "a", "c", "y", "b"].foldl Config.remember crowded).settings =
        crowded.settings := by
  have hnodup : crowded.recentAddresses.Nodup := by decide
  have huses : ["a", "b", "a", "c", "y", "b"] ≠ [] := by decide
  obtain ⟨hrecent, -, -, -, hsettings⟩ := foldl_remember_latest hnodup huses
  exact ⟨hnodup, hrecent.trans (by decide), hsettings⟩

end EdmxGen
