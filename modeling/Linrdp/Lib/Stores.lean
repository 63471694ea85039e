import Mathlib.Data.List.Nodup
import Mathlib.Data.List.Range

/-!
# Stores into planes, by one thread or by many

A program that only writes to its buffers is the list of its stores. `exec` runs such a list over a
family of planes, and every sample counts the stores that reached it. Stores that reach each place
of a region once, with the value `f` has there, paint `f` on the region (`Paints`), and then `exec`
is a closed form (`exec_of_paints`). Threads that own their planes are run by a schedule, which does
not matter (`scope_eq`).
-/

namespace Linrdp.Lib.Stores

open List

/-! ### Planes and stores -/

structure Sample (α : Type) where
  value : α
  stores : ℕ
  deriving DecidableEq

structure Store (π α : Type) where
  place : π
  value : α
  deriving DecidableEq

abbrev Planes (ι α : Type) := ι → List (Sample α)

section painting

variable {π α : Type}

/-- The stores reach every place of the region `D` once and no other, and put `f` there. -/
structure Paints (D : π → Prop) (f : π → α) (ss : List (Store π α)) : Prop where
  once : (ss.map Store.place).Nodup
  mem_iff : ∀ x, x ∈ ss.map Store.place ↔ D x
  value : ∀ s ∈ ss, s.value = f s.place

variable {D : π → Prop} {f : π → α} {ss : List (Store π α)}

theorem Paints.of_blocks {κ : Type} {l : List κ} {block : κ → List (Store π α)} (owner : π → κ)
    (hl : l.Nodup) (honce : ∀ x ∈ l, ((block x).map Store.place).Nodup)
    (hstore : ∀ x ∈ l, ∀ s ∈ block x, owner s.place = x ∧ D s.place ∧ s.value = f s.place)
    (hcover : ∀ y, D y → owner y ∈ l ∧ y ∈ (block (owner y)).map Store.place) :
    Paints D f (l.flatMap block) where
  once := by
    rw [map_flatMap, nodup_flatMap]
    refine ⟨honce, hl.imp_of_mem fun {x y} hx hy hne => ?_⟩
    intro place hpx hpy
    obtain ⟨s, hs, rfl⟩ := mem_map.mp hpx
    obtain ⟨t, ht, hplace⟩ := mem_map.mp hpy
    have howns := (hstore y hy t ht).1
    rw [hplace, (hstore x hx s hs).1] at howns
    exact hne howns
  mem_iff y := by
    rw [map_flatMap, mem_flatMap]
    constructor
    · rintro ⟨x, hx, hmem⟩
      obtain ⟨s, hs, rfl⟩ := mem_map.mp hmem
      exact (hstore x hx s hs).2.1
    · intro hD
      exact ⟨owner y, hcover y hD⟩
  value s hs := by
    obtain ⟨x, hx, hmem⟩ := mem_flatMap.mp hs
    exact (hstore x hx s hmem).2.2

theorem places_rename {ρ : Type} (e : π → ρ) (ss : List (Store π α)) :
    (ss.map fun s => (⟨e s.place, s.value⟩ : Store ρ α)).map Store.place = (ss.map Store.place).map
    e := by
  simp [Function.comp_def]

theorem Paints.rename {ρ : Type} {D' : ρ → Prop} {f' : ρ → α} (h : Paints D f ss) (e : π → ρ)
    (hinj : ∀ x y, D x → D y → e x = e y → x = y) (hD : ∀ z, D' z ↔ ∃ x, D x ∧ e x = z)
    (hf : ∀ x, D x → f' (e x) = f x) : Paints D' f' (ss.map fun s => ⟨e s.place, s.value⟩) where
  once := by
    rw [places_rename]
    exact h.once.map_on fun x hx y hy => hinj x y ((h.mem_iff x).mp hx) ((h.mem_iff y).mp hy)
  mem_iff z := by
    rw [places_rename, mem_map, hD]
    simp only [h.mem_iff]
  value s hs := by
    obtain ⟨t, ht, rfl⟩ := mem_map.mp hs
    rw [hf _ ((h.mem_iff _).mp (mem_map_of_mem ht))]
    exact h.value t ht

end painting

/-! ### Planes that are rasters -/

def raster {ι : Type} (width : ι → ℕ) (x : ι × ℕ × ℕ) : ι × ℕ := (x.1, x.2.1 * width x.1 + x.2.2)

variable {width row col : ℕ}

theorem div_raster (h : col < width) : (row * width + col) / width = row := by
  rw [Nat.mul_comm, Nat.mul_add_div (by omega), Nat.div_eq_of_lt h, Nat.add_zero]

theorem mod_raster (h : col < width) : (row * width + col) % width = col := by
  rw [Nat.mul_comm, Nat.mul_add_mod, Nat.mod_eq_of_lt h]

theorem raster_lt {rows : ℕ} (hrow : row < rows) (hcol : col < width) :
    row * width + col < rows * width := by
  have hle : (row + 1) * width ≤ rows * width := Nat.mul_le_mul_right width hrow
  rw [Nat.add_mul] at hle
  omega

theorem Paints.raster {ι α : Type} (width rows : ι → ℕ) (g : ι → ℕ → ℕ → α)
    {ss : List (Store (ι × ℕ × ℕ) α)}
    (h : Paints (fun x => x.2.1 < rows x.1 ∧ x.2.2 < width x.1) (fun x => g x.1 x.2.1 x.2.2) ss) :
    Paints (fun x => x.2 < rows x.1 * width x.1)
    (fun x => g x.1 (x.2 / width x.1) (x.2 % width x.1))
      (ss.map fun s => ⟨Stores.raster width s.place, s.value⟩) := by
  refine h.rename (Stores.raster width) ?_ ?_ ?_
  · rintro ⟨p, r, c⟩ ⟨q, r', c'⟩ ⟨-, hc⟩ ⟨-, hc'⟩ heq
    obtain ⟨rfl, hindex⟩ := Prod.mk.inj heq
    have hrow := congrArg (· / width p) hindex
    have hcol := congrArg (· % width p) hindex
    simp only [div_raster hc, div_raster hc', mod_raster hc, mod_raster hc'] at hrow hcol
    rw [hrow, hcol]
  · rintro ⟨p, k⟩
    constructor
    · intro hk
      have hpos : 0 < width p := Nat.pos_of_ne_zero fun h0 => by simp [h0] at hk
      have hrow : k / width p < rows p := Nat.div_lt_of_lt_mul (by rwa [Nat.mul_comm])
      exact ⟨(p, k / width p, k % width p), ⟨hrow, Nat.mod_lt _ hpos⟩,
        Prod.ext rfl (Nat.div_add_mod' k (width p))⟩
    · rintro ⟨⟨q, r, c⟩, ⟨hr, hc⟩, heq⟩
      obtain ⟨rfl, rfl⟩ := Prod.mk.inj heq
      exact raster_lt hr hc
  · rintro ⟨p, r, c⟩ ⟨-, hc⟩
    simp only [Stores.raster, div_raster hc, mod_raster hc]

/-! ### Running the stores -/

section

variable {ι α : Type}

def fresh (zero : α) (size : ι → ℕ) : Planes ι α := fun p => List.replicate (size p) ⟨zero, 0⟩

def picture (f : ι × ℕ → α) (size : ι → ℕ) : Planes ι α :=
  fun p => (List.range (size p)).map fun k => ⟨f (p, k), 1⟩

@[simp] theorem length_picture (f : ι × ℕ → α) (size : ι → ℕ) (p : ι) :
    (picture f size p).length = size p := by simp [picture]

theorem getElem?_picture {f : ι × ℕ → α} {size : ι → ℕ} {p : ι} {k : ℕ} (hk : k < size p) :
    (picture f size p)[k]? = some ⟨f (p, k), 1⟩ := by simp [picture, hk]

def sampleAt (b : Planes ι α) (p : ι) (k : ℕ) : Option α := (b p)[k]?.map Sample.value

theorem sampleAt_raster {width size : ι → ℕ} (g : ι → ℕ → ℕ → α) {p : ι} {rows r c : ℕ}
    (hsize : size p = rows * width p) (hr : r < rows) (hc : c < width p) :
    sampleAt (picture (fun x => g x.1 (x.2 / width x.1) (x.2 % width x.1)) size) p
    (r * width p + c) =
      some (g p r c) := by
  rw [sampleAt, getElem?_picture (by rw [hsize]; exact raster_lt hr hc), div_raster hc,
    mod_raster hc]
  rfl

theorem stores_of_mem_picture {f : ι × ℕ → α} {size : ι → ℕ} {p : ι} {x : Sample α}
    (hx : x ∈ picture f size p) : x.stores = 1 := by
  obtain ⟨k, -, rfl⟩ := mem_map.mp hx
  rfl

variable [DecidableEq ι]

def store (b : Planes ι α) (s : Store (ι × ℕ) α) : Option (Planes ι α) :=
  (b s.place.1)[s.place.2]?.map fun old =>
    Function.update b s.place.1 ((b s.place.1).set s.place.2 ⟨s.value, old.stores + 1⟩)

def exec (b : Planes ι α) (ss : List (Store (ι × ℕ) α)) : Option (Planes ι α) := ss.foldlM store b

theorem store_eq {b : Planes ι α} {s : Store (ι × ℕ) α} (hs : s.place.2 < (b s.place.1).length) :
    ∃ b', store b s = some b' ∧ (∀ p, (b' p).length = (b p).length) ∧
      ∀ p k, (b' p)[k]? =
        if (p, k) = s.place then (b p)[k]?.map fun old =>
        ⟨s.value, old.stores + 1⟩ else (b p)[k]? := by
  obtain ⟨⟨q, i⟩, v⟩ := s
  refine ⟨_, by rw [store, getElem?_eq_getElem hs]; rfl, fun p => ?_, fun p k => ?_⟩
  · by_cases hp : p = q
    · subst hp
      simp
    · simp [hp]
  · by_cases hp : p = q
    · subst hp
      by_cases hk : k = i
      · subst hk
        simp [hs]
      · simp [hk, Ne.symm hk]
    · simp [hp]

theorem exec_spec {f : ι × ℕ → α} {ss : List (Store (ι × ℕ) α)} {b : Planes ι α}
    (honce : (ss.map Store.place).Nodup) (hin : ∀ s ∈ ss, s.place.2 < (b s.place.1).length)
    (hvalue : ∀ s ∈ ss, s.value = f s.place) :
    ∃ b', exec b ss = some b' ∧ (∀ p, (b' p).length = (b p).length) ∧
      ∀ p k, (b' p)[k]? =
        if (p, k) ∈ ss.map Store.place then (b p)[k]?.map fun old => ⟨f (p, k), old.stores + 1⟩
        else (b p)[k]? := by
  induction ss generalizing b with
  | nil => exact ⟨b, rfl, fun _ => rfl, fun p k => by simp⟩
  | cons s ss ih =>
    rw [map_cons, nodup_cons] at honce
    obtain ⟨b₁, hstore, hlen, hget⟩ := store_eq (hin s (by simp))
    obtain ⟨b₂, hexec, hlen', hget'⟩ := ih (b := b₁) honce.2
      (fun t ht => by rw [hlen]; exact hin t (by simp [ht])) (fun t ht => hvalue t (by simp [ht]))
    refine ⟨b₂, ?_, fun p => (hlen' p).trans (hlen p), fun p k => ?_⟩
    · rw [exec, foldlM_cons, hstore]
      exact hexec
    · rw [hget', hget]
      by_cases hplace : (p, k) = s.place
      · -- no later store comes back to this place
        have hnot : (p, k) ∉ ss.map Store.place := hplace ▸ honce.1
        rw [if_neg hnot, if_pos hplace, if_pos (by simp [hplace]), hvalue s (by simp), hplace]
      · by_cases hlater : (p, k) ∈ ss.map Store.place
        · have hmem : (p, k) ∈ (s :: ss).map Store.place := mem_cons_of_mem _ hlater
          rw [if_pos hlater, if_neg hplace, if_pos hmem]
        · have hnot : (p, k) ∉ (s :: ss).map Store.place := by
            rw [map_cons, mem_cons]
            exact fun h => h.elim hplace hlater
          rw [if_neg hlater, if_neg hplace, if_neg hnot]

theorem exec_of_paints {f : ι × ℕ → α} {ss : List (Store (ι × ℕ) α)} {size : ι → ℕ} (zero : α)
    (h : Paints (fun x => x.2 < size x.1) f ss) :
    exec (fresh zero size) ss = some (picture f size) := by
  have hin : ∀ s ∈ ss, s.place.2 < (fresh zero size s.place.1).length := by
    intro s hs
    rw [fresh, length_replicate]
    exact (h.mem_iff _).mp (mem_map_of_mem hs)
  obtain ⟨b, hexec, hlen, hget⟩ := exec_spec h.once hin h.value
  rw [hexec]
  congr 1
  funext p
  refine ext_getElem? fun k => ?_
  by_cases hk : k < size p
  · rw [hget, if_pos ((h.mem_iff (p, k)).mpr hk), getElem?_picture hk]
    simp [fresh, hk]
  · rw [getElem?_eq_none, getElem?_eq_none]
    · rw [length_picture]
      omega
    · rw [hlen, fresh, length_replicate]
      omega

end

/-! ### Threads -/

section

variable {σ β : Type} {f : σ → β → Option σ}

structure Thread (σ β : Type) where
  state : σ
  todo : List β

def Thread.step (f : σ → β → Option σ) (t : Thread σ β) : Option (Thread σ β) :=
  match t.todo with
  | [] => some t
  | b :: todo => (f t.state b).map (⟨·, todo⟩)

def Thread.join (f : σ → β → Option σ) (t : Thread σ β) : Option σ := t.todo.foldlM f t.state

def tick (f : σ → β → Option σ) (ts : List (Thread σ β)) (i : ℕ) : Option (List (Thread σ β)) :=
  match ts[i]? with
  | none => some ts
  | some t => (t.step f).map (ts.set i)

def scope (f : σ → β → Option σ) (schedule : List ℕ) (ts : List (Thread σ β)) : Option (List σ) :=
    do
  let ts ← schedule.foldlM (tick f) ts
  ts.mapM (Thread.join f)

theorem step_join {t : Thread σ β} {r : σ} (h : t.join f = some r) :
    ∃ t', t.step f = some t' ∧ t'.join f = some r := by
  obtain ⟨state, todo⟩ := t
  cases todo with
  | nil => exact ⟨_, rfl, h⟩
  | cons b todo =>
    rw [Thread.join, foldlM_cons] at h
    obtain ⟨s, hs, hrest⟩ := Option.bind_eq_some_iff.mp h
    exact ⟨⟨s, todo⟩, by simp only [Thread.step, hs, Option.map_some], hrest⟩

theorem tick_join {ts : List (Thread σ β)} {rs : List σ} (h : ts.map (Thread.join f) = rs.map some)
    (i : ℕ) : ∃ ts', tick f ts i = some ts' ∧ ts'.map (Thread.join f) = rs.map some := by
  rw [tick]
  cases hi : ts[i]? with
  | none => exact ⟨ts, rfl, h⟩
  | some t =>
    have hjoin : (ts.map (Thread.join f))[i]? = some (t.join f) := by rw [getElem?_map, hi]; rfl
    rw [h, getElem?_map] at hjoin
    obtain ⟨r, hr, htr⟩ := Option.map_eq_some_iff.mp hjoin
    obtain ⟨t', hstep, hjoin'⟩ := step_join htr.symm
    refine ⟨ts.set i t', by simp only [hstep, Option.map_some], ?_⟩
    -- the thread that moved still ends with what it would have ended with
    have hsame : (ts.map (Thread.join f))[i]? = some (some r) := by
      rw [h, getElem?_map, hr]
      rfl
    rw [map_set, hjoin', ← h]
    refine ext_getElem? fun k => ?_
    rw [getElem?_set]
    split_ifs with hk hlt
    · rw [← hk, hsame]
    · rw [← hk, getElem?_eq_none (by omega)]
    · rfl

theorem mapM_of_map {γ δ : Type} {g : γ → Option δ} {l : List γ} {rs : List δ}
    (h : l.map g = rs.map some) : l.mapM g = some rs := by
  induction l generalizing rs with
  | nil =>
    cases rs with
    | nil => rfl
    | cons => cases h
  | cons x l ih =>
    cases rs with
    | nil => cases h
    | cons r rs =>
      obtain ⟨hx, hl⟩ := cons.inj h
      rw [mapM_cons, hx, ih hl]
      rfl

theorem scope_eq {ts : List (Thread σ β)} {rs : List σ} (h : ts.map (Thread.join f) = rs.map some)
    (schedule : List ℕ) : scope f schedule ts = some rs := by
  induction schedule generalizing ts with
  | nil => exact mapM_of_map h
  | cons i schedule ih =>
    obtain ⟨ts', htick, hjoin⟩ := tick_join h i
    have hrest := ih hjoin
    rw [scope] at hrest ⊢
    rw [foldlM_cons, htick]
    exact hrest

end

end Linrdp.Lib.Stores
