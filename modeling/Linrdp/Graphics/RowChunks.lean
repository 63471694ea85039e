import Linrdp.Lib.Stores
import Mathlib.Data.List.ProdSigma
import Mathlib.Tactic.Ring

/-!
# Rows shared out to threads

`bgrx_to_yuv420` and `bgrx_to_yuv444v2` cut the planes into chunks of whole row pairs and spawn a
thread for each, which indexes its slices from zero while it reads the source at the rows of the
frame. A `Conversion` is what the two differ in, and `Sound` what one call on any range of row pairs
has to do: the chunks together are then the planes of one call over all rows, for any schedule
(`inChunks_eq`).
-/

namespace Linrdp.Graphics.RowChunks

open List Lib.Stores

def divCeil (a b : ℕ) : Option ℕ :=
  if b = 0 then none else some (if 0 < a % b then a / b + 1 else a / b)

def splitRowChunks {β : Type} (rowsPerChunk rowLen : ℕ) : ℕ → List β → List (List β)
  | 0, _ => []
  | count + 1, slice =>
    let take := min (rowsPerChunk * rowLen) slice.length
    slice.take take :: splitRowChunks rowsPerChunk rowLen count (slice.drop take)

def rowLoops {ι : Type} (columns j0 j1 : ℕ) (block : ℕ → ℕ → Option (List (Store (ι × ℕ) UInt8))) :
    Option (List (Store (ι × ℕ) UInt8)) := do
  let rows ← (range' j0 (j1 - j0)).mapM fun j => (range columns).mapM (block j)
  return rows.flatten.flatten

/-- One of the two conversions; `ι` names its planes. -/
structure Conversion (ι : Type) where
  size : ι → ℕ
  /-- The rows and the row length that `split_row_chunks` is called with, for one row pair. -/
  (rows rowLen : ι → ℕ)
  /-- The stores of a call on a range of row pairs, or none if it panics. -/
  convertRows : ℕ → ℕ → Option (List (Store (ι × ℕ) UInt8))

namespace Conversion

variable {ι : Type} [DecidableEq ι] (c : Conversion ι)

def pairLen (p : ι) : ℕ := c.rows p * c.rowLen p

def thread (pairs perWorker chunkCount k : ℕ) :
    Option (Thread (Planes ι UInt8) (Store (ι × ℕ) UInt8)) := do
  let j0 := k * perWorker
  let todo ← c.convertRows j0 (min (j0 + perWorker) pairs)
  let chunks p := splitRowChunks (c.rows p * perWorker) (c.rowLen p) chunkCount (fresh 0 c.size p)
  return ⟨fun p => (chunks p).getD k [], todo⟩

def rejoin (chunks : List (Planes ι UInt8)) : Planes ι UInt8 := fun p =>
  let written := (chunks.map (· p)).flatten
  written ++ (fresh 0 c.size p).drop written.length

def inChunks (schedule : List ℕ) (workers pairs : ℕ) : Option (Planes ι UInt8) := do
  let perWorker ← divCeil pairs workers
  let chunkCount ← divCeil pairs perWorker
  let threads ← (range chunkCount).mapM (c.thread pairs perWorker chunkCount)
  let chunks ← scope store schedule threads
  return c.rejoin chunks

def sequential (pairs : ℕ) : Option (Planes ι UInt8) := do
  let todo ← c.convertRows 0 pairs
  exec (fresh 0 c.size) todo

/-- A call on any range of row pairs puts the part of `f` there that belongs to the range. -/
structure Sound (pairs : ℕ) (f : ι × ℕ → UInt8) : Prop where
  size : ∀ p, c.size p = pairs * c.pairLen p
  rows : ∀ j0 j1, j0 ≤ j1 → j1 ≤ pairs → ∃ ss, c.convertRows j0 j1 = some ss ∧
    Paints (fun x => x.2 < (j1 - j0) * c.pairLen x.1) (fun x => f (x.1, j0 * c.pairLen x.1 + x.2))
    ss

end Conversion

/-! ### The cut -/

theorem divCeil_spec {a b : ℕ} (hb : 0 < b) :
    ∃ q, divCeil a b = some q ∧ a ≤ q * b ∧ ∀ k < q, k * b < a := by
  rw [divCeil, if_neg (by omega)]
  have hdiv := Nat.div_add_mod' a b
  have hmod := Nat.mod_lt a hb
  refine ⟨_, rfl, ?_, fun k hk => ?_⟩
  · split_ifs with h
    · rw [Nat.add_mul]
      omega
    · omega
  · have hle : k * b ≤ a / b * b := Nat.mul_le_mul_right b (by split_ifs at hk <;> omega)
    split_ifs at hk with h
    · omega
    · have hlt : (k + 1) * b ≤ a / b * b := Nat.mul_le_mul_right b hk
      rw [Nat.add_mul] at hlt
      omega

theorem getD_splitRowChunks {β : Type} (rowsPerChunk rowLen : ℕ) {count k : ℕ} (hk : k < count)
    (slice : List β) :
    (splitRowChunks rowsPerChunk rowLen count slice).getD k [] =
      (slice.drop (k * (rowsPerChunk * rowLen))).take (rowsPerChunk * rowLen) := by
  induction count generalizing k slice with
  | zero => omega
  | succ count ih =>
    have htake : slice.take (min (rowsPerChunk * rowLen) slice.length) =
        slice.take (rowsPerChunk * rowLen) := by
      rw [← take_take, take_length]
    have hdrop : slice.drop (min (rowsPerChunk * rowLen) slice.length) =
        slice.drop (rowsPerChunk * rowLen) := by
      rcases Nat.le_total (rowsPerChunk * rowLen) slice.length with h | h
      · rw [Nat.min_eq_left h]
      · rw [Nat.min_eq_right h, drop_length, drop_eq_nil_of_le h]
    rw [splitRowChunks]
    cases k with
    | zero => simp [htake]
    | succ k =>
      rw [getD_cons_succ, ih (by omega), hdrop, drop_drop]
      congr 2
      ring

theorem flatten_chunks {β : Type} (g : ℕ → β) (len perWorker pairs n : ℕ) :
    ((range n).map fun k => (range ((min (k * perWorker + perWorker) pairs - k * perWorker) *
    len)).map
      fun i => g (k * perWorker * len + i)).flatten =
      (range (min (n * perWorker) pairs * len)).map g := by
  induction n with
  | zero => simp
  | succ n ih =>
    rw [range_succ, map_append, flatten_append, ih]
    rcases Nat.le_total (n * perWorker) pairs with hle | hle
    · have hsum : min ((n + 1) * perWorker) pairs * len = n * perWorker * len +
          (min (n * perWorker + perWorker) pairs - n * perWorker) * len := by
        rw [← Nat.add_mul, Nat.add_mul n 1, Nat.one_mul]
        congr 1
        omega
      rw [hsum, Nat.min_eq_left hle, range_add]
      simp
    · have hnext : pairs ≤ (n + 1) * perWorker := by
        rw [Nat.add_mul]
        omega
      have hnone : min (n * perWorker + perWorker) pairs - n * perWorker = 0 := by omega
      rw [Nat.min_eq_right hle, Nat.min_eq_right hnext]
      simp [hnone]

/-! ### The threads -/

theorem exists_mapM {γ δ ε : Type} {g : γ → Option δ} {h : δ → ε} {r : γ → ε} {l : List γ}
    (hl : ∀ x ∈ l, ∃ y, g x = some y ∧ h y = r x) : ∃ ys, l.mapM g = some ys ∧
    ys.map h = l.map r := by
  induction l with
  | nil => exact ⟨[], rfl, rfl⟩
  | cons x l ih =>
    obtain ⟨y, hy, hr⟩ := hl x (by simp)
    obtain ⟨ys, hys, hrs⟩ := ih fun z hz => hl z (by simp [hz])
    refine ⟨y :: ys, ?_, by rw [map_cons, map_cons, hr, hrs]⟩
    rw [mapM_cons, hy, hys]
    rfl

namespace Conversion

variable {ι : Type} [DecidableEq ι] {c : Conversion ι} {pairs : ℕ} {f : ι × ℕ → UInt8}

theorem sequential_eq (h : c.Sound pairs f) : c.sequential pairs = some (picture f c.size) := by
  obtain ⟨ss, hconvert, hpaints⟩ := h.rows 0 pairs (by omega) (by omega)
  have hall : Paints (fun x => x.2 < c.size x.1) f ss := by
    simpa only [h.size, Nat.sub_zero, Nat.zero_mul, Nat.zero_add] using hpaints
  rw [sequential, hconvert]
  exact exec_of_paints 0 hall

def chunkRows (pairs perWorker k : ℕ) : ℕ := min (k * perWorker + perWorker) pairs - k * perWorker

def chunk (c : Conversion ι) (f : ι × ℕ → UInt8) (pairs perWorker k : ℕ) : Planes ι UInt8 :=
  picture (fun x => f (x.1, k * perWorker * c.pairLen x.1 + x.2))
    fun p => chunkRows pairs perWorker k * c.pairLen p

omit [DecidableEq ι] in
theorem slice_eq (h : c.Sound pairs f) {perWorker chunkCount k : ℕ} (hk : k < chunkCount) (p : ι) :
    (splitRowChunks (c.rows p * perWorker) (c.rowLen p) chunkCount
    (fresh (0 : UInt8) c.size p)).getD k [] =
      replicate (chunkRows pairs perWorker k * c.pairLen p) ⟨0, 0⟩ := by
  have hlen : c.rows p * perWorker * c.rowLen p = perWorker * c.pairLen p := by
    rw [pairLen]
    ring
  rw [getD_splitRowChunks _ _ hk, fresh, drop_replicate, take_replicate, h.size, hlen,
    ← Nat.mul_assoc, ← Nat.sub_mul, Nat.mul_min_mul_right, chunkRows]
  congr 2
  omega

theorem thread_join (h : c.Sound pairs f) {perWorker chunkCount k : ℕ} (hk : k < chunkCount)
    (hstart : k * perWorker < pairs) :
    ∃ t, c.thread pairs perWorker chunkCount k = some t ∧
      t.join store = some (c.chunk f pairs perWorker k) := by
  obtain ⟨ss, hconvert, hpaints⟩ := h.rows (k * perWorker) (min (k * perWorker + perWorker) pairs)
    (by omega) (by omega)
  refine ⟨_, by rw [thread, hconvert]; rfl, ?_⟩
  rw [Thread.join]
  dsimp only
  rw [funext (slice_eq h hk)]
  exact exec_of_paints 0 hpaints

omit [DecidableEq ι] in
theorem rejoin_chunks (h : c.Sound pairs f) {perWorker n : ℕ} (hn : pairs ≤ n * perWorker) :
    c.rejoin ((range n).map (c.chunk f pairs perWorker)) = picture f c.size := by
  funext p
  have hwritten : (((range n).map (c.chunk f pairs perWorker)).map (· p)).flatten =
      picture f c.size p := by
    rw [map_map, picture, h.size]
    refine (flatten_chunks (fun k => (⟨f (p, k), 1⟩ : Sample UInt8)) (c.pairLen p) perWorker pairs
      n).trans ?_
    rw [Nat.min_eq_right hn]
  rw [rejoin]
  simp only [hwritten, length_picture]
  rw [fresh, drop_replicate, Nat.sub_self, replicate_zero, append_nil]

theorem inChunks_eq (h : c.Sound pairs f) {workers : ℕ} (hworkers : 0 < workers)
    (hpairs : 0 < pairs) (schedule : List ℕ) :
    c.inChunks schedule workers pairs = some (picture f c.size) := by
  obtain ⟨perWorker, hper, hcover, -⟩ := divCeil_spec (a := pairs) hworkers
  have hpos : 0 < perWorker := by
    rcases Nat.eq_zero_or_pos perWorker with rfl | hpos
    · omega
    · exact hpos
  obtain ⟨chunkCount, hcount, hall, hbelow⟩ := divCeil_spec (a := pairs) hpos
  obtain ⟨threads, hthreads, hjoins⟩ := exists_mapM
    (h := Thread.join store) (r := fun k => some (c.chunk f pairs perWorker k)) fun k hk =>
      thread_join h (mem_range.mp hk) (hbelow k (mem_range.mp hk))
  have hscope : scope store schedule threads =
      some ((range chunkCount).map (c.chunk f pairs perWorker)) :=
    scope_eq (by rw [hjoins, map_map]; rfl) schedule
  rw [inChunks, hper]
  simp only [Option.bind_eq_bind, Option.bind_some, hcount, hthreads, hscope]
  rw [rejoin_chunks h hall]
  rfl

structure Makes (c : Conversion ι) (pairs : ℕ) (planes : Planes ι UInt8) : Prop where
  sequential : c.sequential pairs = some planes
  inChunks : ∀ schedule workers, 0 < workers → c.inChunks schedule workers pairs = some planes
  length : ∀ p, (planes p).length = c.size p
  once : ∀ p, ∀ s ∈ planes p, s.stores = 1

theorem Sound.makes (h : c.Sound pairs f) (hpairs : 0 < pairs) : c.Makes pairs (picture f c.size) :=
  ⟨sequential_eq h, fun schedule _ hworkers => inChunks_eq h hworkers hpairs schedule,
    fun p => length_picture f c.size p, fun _ _ => stores_of_mem_picture⟩

/-! ### A call -/

def toIndices (width : ι → ℕ) (cells : List (Store (ι × ℕ × ℕ) UInt8)) :
    List (Store (ι × ℕ) UInt8) :=
  cells.map fun s => ⟨raster width s.place, s.value⟩

omit [DecidableEq ι] in
theorem rowLoops_eq {columns j0 j1 : ℕ} {block : ℕ → ℕ → Option (List (Store (ι × ℕ) UInt8))}
    {width : ι → ℕ} {cells : ℕ → ℕ → List (Store (ι × ℕ × ℕ) UInt8)}
    (h : ∀ j, j0 ≤ j → j < j1 → ∀ i < columns, block j i = some (toIndices width (cells j i))) :
    rowLoops columns j0 j1 block = some (toIndices width
      ((range' j0 (j1 - j0) ×ˢ range columns).flatMap fun x => cells x.1 x.2)) := by
  have hrow : ∀ j ∈ range' j0 (j1 - j0), (range columns).mapM (block j) =
      some ((range columns).map fun i => toIndices width (cells j i)) := by
    intro j hj
    obtain ⟨hle, hlt⟩ := mem_range'_1.mp hj
    refine mapM_of_map ?_
    rw [map_map]
    exact map_congr_left fun i hi => h j hle (by omega) i (mem_range.mp hi)
  have hrows : (range' j0 (j1 - j0)).mapM (fun j => (range columns).mapM (block j)) =
      some ((range' j0 (j1 - j0)).map fun j =>
        (range columns).map fun i => toIndices width (cells j i)) := by
    refine mapM_of_map ?_
    rw [map_map]
    exact map_congr_left hrow
  rw [rowLoops, hrows]
  simp [toIndices, SProd.sprod, product, flatMap, Function.comp_def, map_flatten, flatten_flatten]

/-- A conversion whose blocks are known by row and column. The rows that the block `i` of the row
pair `j` stores to are those of the pair in the chunk, and `owner` is where a place has its row pair
and block. -/
structure Blocks (c : Conversion ι) (columns : ℕ) (width rows : ι → ℕ) (g : ι → ℕ → ℕ → UInt8)
    (cells : ℕ → ℕ → ℕ → List (Store (ι × ℕ × ℕ) UInt8)) (owner : ι → ℕ → ℕ → ℕ × ℕ) : Prop where
  pairLen : ∀ p, c.pairLen p = rows p * width p
  convert : ∀ j0 j1, c.convertRows j0 j1 =
    rowLoops columns j0 j1 fun j i => some (toIndices width (cells (j - j0) j i))
  once : ∀ k j, ∀ i < columns, ((cells k j i).map Store.place).Nodup
  stores : ∀ k j0, ∀ i < columns, ∀ s ∈ cells k (j0 + k) i,
    owner s.place.1 s.place.2.1 s.place.2.2 = (k, i) ∧
    s.place.2.1 < (k + 1) * rows s.place.1 ∧ s.place.2.2 < width s.place.1 ∧
    s.value = g s.place.1 (j0 * rows s.place.1 + s.place.2.1) s.place.2.2
  cover : ∀ n j0 p r col, r < n * rows p → col < width p → ∃ k < n, ∃ i < columns,
    owner p r col = (k, i) ∧ (p, r, col) ∈ (cells k (j0 + k) i).map Store.place

omit [DecidableEq ι] in
theorem Blocks.paints {columns : ℕ} {width rows : ι → ℕ} {g : ι → ℕ → ℕ → UInt8}
    {cells : ℕ → ℕ → ℕ → List (Store (ι × ℕ × ℕ) UInt8)} {owner : ι → ℕ → ℕ → ℕ × ℕ}
    (h : c.Blocks columns width rows g cells owner) (j0 n : ℕ) :
    Paints (fun x => x.2.1 < n * rows x.1 ∧ x.2.2 < width x.1)
      (fun x => g x.1 (j0 * rows x.1 + x.2.1) x.2.2)
      ((range' j0 n ×ˢ range columns).flatMap fun x => cells (x.1 - j0) x.1 x.2) := by
  refine Paints.of_blocks (fun x => ((owner x.1 x.2.1 x.2.2).1 + j0, (owner x.1 x.2.1 x.2.2).2))
    (List.Nodup.product nodup_range' nodup_range) ?_ ?_ ?_
  · rintro ⟨j, i⟩ hx
    exact h.once _ _ i (mem_range.mp (pair_mem_product.mp hx).2)
  · rintro ⟨j, i⟩ hx s hs
    obtain ⟨hj, hi⟩ := pair_mem_product.mp hx
    obtain ⟨hle, hlt⟩ : j0 ≤ j ∧ j < j0 + n := by simpa using mem_range'_1.mp hj
    obtain ⟨k, rfl⟩ := Nat.exists_eq_add_of_le hle
    rw [Nat.add_sub_cancel_left] at hs
    obtain ⟨howner, hrow, hcol, hvalue⟩ := h.stores k j0 i (mem_range.mp hi) s hs
    have hrows : (k + 1) * rows s.place.1 ≤ n * rows s.place.1 :=
      Nat.mul_le_mul_right _ (by omega)
    exact ⟨by rw [howner, Nat.add_comm], ⟨by omega, hcol⟩, hvalue⟩
  · rintro ⟨p, r, col⟩ ⟨hr, hcol⟩
    obtain ⟨k, hk, i, hi, howner, hmem⟩ := h.cover n j0 p r col hr hcol
    simp only [howner, Nat.add_sub_cancel]
    refine ⟨pair_mem_product.mpr ⟨mem_range'_1.mpr (by omega), mem_range.mpr hi⟩, ?_⟩
    rwa [Nat.add_comm k]

omit [DecidableEq ι] in
theorem Blocks.sound {columns : ℕ} {width rows : ι → ℕ} {g : ι → ℕ → ℕ → UInt8}
    {cells : ℕ → ℕ → ℕ → List (Store (ι × ℕ × ℕ) UInt8)} {owner : ι → ℕ → ℕ → ℕ × ℕ}
    (h : c.Blocks columns width rows g cells owner) (hsize : ∀ p, c.size p = pairs * c.pairLen p) :
    c.Sound pairs fun x => g x.1 (x.2 / width x.1) (x.2 % width x.1) := by
  refine ⟨hsize, fun j0 j1 _ _ => ⟨_, (h.convert j0 j1).trans (rowLoops_eq fun _ _ _ _ _ => rfl),
    ?_⟩⟩
  have hpaints := Paints.raster width (fun p => (j1 - j0) * rows p)
      (fun p r => g p (j0 * rows p + r))
    (h.paints j0 (j1 - j0))
  refine ⟨hpaints.once, fun x => ?_, fun s hs => ?_⟩
  · rw [h.pairLen, ← Nat.mul_assoc]
    exact hpaints.mem_iff x
  · have hin := (hpaints.mem_iff _).mp (mem_map_of_mem hs)
    have hpos : 0 < width s.place.1 := Nat.pos_of_ne_zero fun h0 => by simp [h0] at hin
    rw [hpaints.value s hs, h.pairLen, ← Nat.mul_assoc, Nat.mul_comm _ (width s.place.1),
      Nat.mul_add_div hpos, Nat.mul_add_mod]

end Conversion

end Linrdp.Graphics.RowChunks
