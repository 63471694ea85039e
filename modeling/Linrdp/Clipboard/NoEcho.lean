import Linrdp.Clipboard.Echo

/-!
# Client data is not advertised back

The invariant behind the echo guard. Client data can be read from the clipboard, from a thread that
has yet to take the selection, or from what the poller has in its hands; in each case the poller has
seen it or the guard is for it. `Orderly` is what keeps the guard from being emptied or overwritten
while it is the only one that knows.
-/

namespace Linrdp.Clipboard.Echo

open List Lib.Runs Publication

namespace State

variable (s : State)

def Seen : Publication → Prop
  | .text t => s.lastText = some t
  | .files uris => s.lastFiles = some (Publication.gnomeCopied uris)
  | .image => True

def Guarded (p : Publication) : Prop := p.guarded = none ∨ s.echoGuard = p.guarded

def KnownFiles (x : Text) : Prop := x ∈ s.fromClient → s.lastFiles = some x ∨ s.echoGuard = some x

def KnownText (t : Text) : Prop :=
  t ∈ s.fromClient → mentionsFile t = false ∧ (s.lastText = some t ∨ s.echoGuard = some t)

end State

open State Content

def Phase.uri : Phase → Option Text
  | .idle => none
  | .gnomeCopied u | .uriText u | .boardText u _ => u

def Phase.text : Phase → Option Text
  | .boardText _ t => t
  | .idle | .gnomeCopied _ | .uriText _ => none

structure Reads (s : State) (p : Publication) : Prop where
  bound : s.bound = true
  uri : s.phase.uri = p.content.gnomeCopied
  text : ∀ u t, s.phase = .boardText u t → t = p.content.text

/-- **The invariant.** What the client's data can be read from, now or later, is a publication that
the poller has seen or that the guard is for. -/
structure Inv (s : State) : Prop where
  board : ∀ p, s.board = .owned p →
    p.published = true ∧ p.plain = true ∧ (s.bound = true ∧ s.Seen p ∨ s.Guarded p)
  owners : ∀ p ∈ s.owners, p.published = true ∧ p.plain = true ∧ s.Guarded p
  copied : ∀ c, s.board = .copied c →
    (∀ x ∈ c.strings, x ∉ s.fromClient) ∨ ∃ p ∈ s.owners, p.guarded ≠ none
  busy : s.phase ≠ .idle → ∀ p ∈ s.owners, p.guarded = none
  reads : ∀ p, s.board = .owned p → p.guarded ≠ none → s.phase ≠ .idle → Reads s p
  uri : ∀ x, s.phase.uri = some x → s.KnownFiles x
  text : ∀ t, s.phase.text = some t → s.KnownText t

theorem Inv.of_idle {s : State} (hidle : s.phase = .idle)
    (board : ∀ p, s.board = .owned p →
      p.published = true ∧ p.plain = true ∧ (s.bound = true ∧ s.Seen p ∨ s.Guarded p))
    (owners : ∀ p ∈ s.owners, p.published = true ∧ p.plain = true ∧ s.Guarded p)
    (copied : ∀ c, s.board = .copied c →
      (∀ x ∈ c.strings, x ∉ s.fromClient) ∨ ∃ p ∈ s.owners, p.guarded ≠ none) : Inv s where
  board := board
  owners := owners
  copied := copied
  busy := fun hphase => absurd hidle hphase
  reads := fun _ _ _ hphase => absurd hidle hphase
  uri := by
    intro x hx
    rw [hidle] at hx
    cases hx
  text := by
    intro t ht
    rw [hidle] at ht
    cases ht

theorem inv_start (c : Content) : Inv (start c) := by
  refine Inv.of_idle rfl ?_ ?_ ?_
  · exact nofun
  · exact nofun
  · intro c' _
    refine Or.inl fun x _ hx => ?_
    cases hx

section steps

variable {s : State}

section

variable (h : Inv s)
include h

theorem Inv.seen {p : Publication} (hp : s.board = .owned p)
    (hfree : s.echoGuard = none ∨ s.holdsClient = false) :
    s.bound = true ∧ s.Seen p ∨ p.guarded = none := by
  rcases (h.board p hp).2.2 with hseen | himage | hguard
  · exact Or.inl hseen
  · exact Or.inr himage
  · rcases hfree with hnone | hholds
    · exact Or.inr (hguard.symm.trans hnone)
    · unfold holdsClient at hholds
      rw [hp] at hholds
      exact Or.inr (by simpa using hholds)

theorem Inv.publish_image : Inv (s.publish .image) where
  board := h.board
  owners := forall_mem_append.2 ⟨h.owners, forall_mem_singleton.2 ⟨rfl, rfl, Or.inl rfl⟩⟩
  copied := by
    intro c hc
    rcases h.copied c hc with hlocal | ⟨p, hp, hp'⟩
    · exact Or.inl hlocal
    · exact Or.inr ⟨p, mem_append_left _ hp, hp'⟩
  busy := fun hphase => forall_mem_append.2 ⟨h.busy hphase, forall_mem_singleton.2 rfl⟩
  reads := fun p hp hp' hphase => ⟨(h.reads p hp hp' hphase).1, (h.reads p hp hp' hphase).2,
    (h.reads p hp hp' hphase).3⟩
  uri := h.uri
  text := h.text

theorem Inv.publish_guarded {p : Publication} (hpub : p.published = true)
    (hguard : p.guarded ≠ none) (hplain : p.plain = true) (hidle : s.phase = .idle)
    (hfree : s.echoGuard = none ∨ s.holdsClient = false) (howners : s.owners = []) :
    Inv (s.publish p) := by
  obtain ⟨g, hg⟩ := Option.ne_none_iff_exists'.1 hguard
  have heq : s.publish p = { s with
      echoGuard := some g
      owners := [p]
      fromClient := p.content.strings ++ s.fromClient } := by
    unfold publish
    rw [if_pos hpub, hg, howners]
    rfl
  rw [heq]
  refine Inv.of_idle hidle ?_ ?_ ?_
  · intro q hq
    refine ⟨(h.board q hq).1, (h.board q hq).2.1, ?_⟩
    rcases h.seen hq hfree with hseen | himage
    · refine Or.inl ⟨hseen.1, ?_⟩
      cases q <;> exact hseen.2
    · exact Or.inr (Or.inl himage)
  · exact forall_mem_singleton.2 ⟨hpub, hplain, Or.inr hg.symm⟩
  · exact fun c _ => Or.inr ⟨p, mem_singleton_self p, hguard⟩

theorem Inv.publish {p : Publication} (horderly : Orderly s (.publish p)) : Inv (s.publish p) := by
  by_cases hpub : p.published = true
  · by_cases himage : p.guarded = none
    · cases p with
      | text t | files uris => cases himage
      | image => exact h.publish_image
    · obtain ⟨hplain, hidle, howners, hfree⟩ := horderly.resolve_left himage
      exact h.publish_guarded hpub himage hplain hidle hfree howners
  · unfold State.publish
    rw [if_neg hpub]
    exact h

theorem Inv.own (i : ℕ) : Inv (s.own i) := by
  unfold State.own
  split
  case h_1 => exact h
  case h_2 p hp =>
    have hmem : p ∈ s.owners := mem_of_getElem? hp
    obtain ⟨hpub, hplain, hguard⟩ := h.owners p hmem
    have hrest : ∀ q ∈ s.owners.eraseIdx i, q ∈ s.owners := fun q hq => mem_of_mem_eraseIdx hq
    constructor
    case board =>
      intro q hq
      obtain rfl := Board.owned.inj hq
      exact ⟨hpub, hplain, Or.inr hguard⟩
    case owners => exact fun q hq => h.owners q (hrest q hq)
    case copied => exact nofun
    case busy => exact fun hphase q hq => h.busy hphase q (hrest q hq)
    case reads =>
      intro q hq hq' hphase
      obtain rfl := Board.owned.inj hq
      exact absurd (h.busy hphase p hmem) hq'
    case uri => exact h.uri
    case text => exact h.text

theorem Inv.copy (c : Content) : Inv (s.copy c) := by
  have hsub : ∀ x ∈ (s.copy c).fromClient, x ∈ s.fromClient := fun x hx => mem_of_mem_filter hx
  constructor
  case board => exact nofun
  case owners => exact h.owners
  case copied =>
    intro c' hc'
    obtain rfl := Board.copied.inj hc'
    refine Or.inl fun x hx hx' => ?_
    have := (mem_filter.1 hx').2
    simp only [contains_eq_mem, hx, decide_true, Bool.not_true] at this
    cases this
  case busy => exact h.busy
  case reads => exact nofun
  case uri => exact fun x hx hx' => h.uri x hx (hsub x hx')
  case text => exact fun t ht ht' => h.text t ht (hsub t ht')

theorem Inv.bind (hholds : s.holdsClient = false) : Inv { s with bound := false } := by
  have himage : ∀ p, s.board = .owned p → p.guarded = none := by
    intro p hp
    unfold holdsClient at hholds
    rw [hp] at hholds
    simpa using hholds
  constructor
  case board =>
    intro p hp
    exact ⟨(h.board p hp).1, (h.board p hp).2.1, Or.inr (Or.inl (himage p hp))⟩
  case owners => exact h.owners
  case copied => exact h.copied
  case busy => exact h.busy
  case reads => exact fun p hp hp' _ => absurd (himage p hp) hp'
  case uri => exact h.uri
  case text => exact h.text

/-! ### An iteration of the poller -/

theorem Inv.follow (hidle : s.phase = .idle) : Inv s.follow := by
  unfold State.follow
  split
  case isTrue => exact h
  case isFalse hbound =>
    refine Inv.of_idle hidle ?_ h.owners h.copied
    intro p hp
    obtain ⟨hpub, hplain, hknown⟩ := h.board p hp
    exact ⟨hpub, hplain, Or.inr (hknown.resolve_left fun hseen => hbound hseen.1)⟩

end

theorem follow_frame (s : State) : s.follow.bound = true ∧ s.follow.owners = s.owners := by
  unfold follow
  split
  case isTrue hbound => exact ⟨hbound, rfl⟩
  case isFalse => exact ⟨rfl, rfl⟩

theorem Inv.read (h : Inv s) (howners : s.owners = []) {phase : Phase}
    (hreads : ∀ p, s.board = .owned p → p.guarded ≠ none → Reads { s with phase := phase } p)
    (huri : ∀ x, phase.uri = some x → s.KnownFiles x)
    (htext : ∀ t, phase.text = some t → s.KnownText t) : Inv { s with phase := phase } where
  board := h.board
  owners := h.owners
  copied := h.copied
  busy := by
    intro _ p hp
    rw [show State.owners _ = [] from howners] at hp
    cases hp
  reads := fun p hp hp' _ => hreads p hp hp'
  uri := huri
  text := htext

theorem Inv.copied_local (h : Inv s) (howners : s.owners = []) {c : Content}
    (hc : s.board = .copied c) {x : Text} (hx : x ∈ c.strings) : x ∉ s.fromClient := by
  rcases h.copied c hc with hlocal | ⟨p, hp, _⟩
  · exact hlocal x hx
  · rw [howners] at hp
    cases hp

theorem Content.mem_strings {c : Content} {x : Text} :
    x ∈ c.strings ↔ c.gnomeCopied = some x ∨ c.uriList = some x ∨ c.text = some x := by
  unfold strings
  simp only [mem_append, Option.mem_toList, or_assoc]

section

variable (h : Inv s) (howners : s.owners = [])
include h howners

theorem Inv.known_gnomeCopied {x : Text}
    (hx : s.board.content.gnomeCopied = some x) : s.KnownFiles x := by
  intro hmem
  cases hboard : s.board with
  | copied c =>
    rw [hboard] at hx
    exact absurd hmem (h.copied_local howners hboard (mem_strings.2 (Or.inl hx)))
  | owned p =>
    rw [hboard] at hx
    obtain ⟨-, -, hknown⟩ := h.board p hboard
    cases p with
    | text t | image => cases hx
    | files uris =>
      obtain rfl := Option.some.inj hx
      rcases hknown with ⟨-, hseen⟩ | himage | hguard
      · exact Or.inl hseen
      · cases himage
      · exact Or.inr hguard

theorem Inv.known_text {t : Text} (ht : s.board.content.text = some t) : s.KnownText t := by
  intro hmem
  cases hboard : s.board with
  | copied c =>
    rw [hboard] at ht
    exact absurd hmem (h.copied_local howners hboard (mem_strings.2 (Or.inr (Or.inr ht))))
  | owned p =>
    rw [hboard] at ht
    obtain ⟨-, hplain, hknown⟩ := h.board p hboard
    cases p with
    | files uris | image => cases ht
    | text t' =>
      obtain rfl := Option.some.inj ht
      refine ⟨by simpa [plain] using hplain, ?_⟩
      rcases hknown with ⟨-, hseen⟩ | himage | hguard
      · exact Or.inl hseen
      · cases himage
      · exact Or.inr hguard

theorem Inv.known_uriList (hphase : s.phase = .gnomeCopied none)
    {x : Text} (hx : s.board.content.uriList = some x) : s.KnownFiles x := by
  intro hmem
  cases hboard : s.board with
  | copied c =>
    rw [hboard] at hx
    exact absurd hmem (h.copied_local howners hboard (mem_strings.2 (Or.inr (Or.inl hx))))
  | owned p =>
    rw [hboard] at hx
    cases p with
    | text t | image => cases hx
    | files uris =>
      have hreads := h.reads _ hboard (by simp [guarded]) (by simp [hphase])
      have huri := hreads.uri
      rw [hphase] at huri
      cases huri

theorem Inv.read_gnomeCopied (hidle : s.phase = .idle) :
    Inv { s.follow with phase := .gnomeCopied s.follow.board.content.gnomeCopied } := by
  obtain ⟨hbound, hframe⟩ := follow_frame s
  have hfollow := h.follow hidle
  have howners' : s.follow.owners = [] := hframe.trans howners
  refine hfollow.read howners' ?_ ?_ ?_
  · intro p hp _
    refine ⟨hbound, ?_, nofun⟩
    show s.follow.board.content.gnomeCopied = _
    rw [show s.follow.board = .owned p from hp]
    rfl
  · exact fun x hx => hfollow.known_gnomeCopied howners' hx
  · exact nofun

theorem Inv.read_uriList {bytes : Option Text} (hphase : s.phase = .gnomeCopied bytes) :
    Inv { s with phase := .uriText (bytes.or s.board.content.uriList) } := by
  refine h.read howners ?_ ?_ ?_
  · intro p hp hp'
    have hreads := h.reads p hp hp' (by simp [hphase])
    have huri := hreads.uri
    rw [hphase] at huri
    refine ⟨hreads.bound, ?_, nofun⟩
    show bytes.or s.board.content.uriList = _
    rw [show bytes = p.content.gnomeCopied from huri, hp]
    cases p <;> rfl
  · intro x hx
    cases bytes with
    | none => exact h.known_uriList howners hphase hx
    | some y =>
      refine h.uri x ?_
      rw [hphase]
      exact hx
  · exact nofun

theorem Inv.read_text {u : Option Text} (hphase : s.phase = .uriText u) :
    Inv { s with phase := .boardText u (s.board.content.text.filter fun t => !t.isEmpty) } := by
  refine h.read howners ?_ ?_ ?_
  · intro p hp hp'
    have hreads := h.reads p hp hp' (by simp [hphase])
    have huri := hreads.uri
    rw [hphase] at huri
    refine ⟨hreads.bound, huri, ?_⟩
    intro u' t ht
    obtain ⟨-, rfl⟩ := Phase.boardText.inj ht
    rw [hp]
    have hpub := (h.board p hp).1
    cases p with
    | text t =>
      show (some t).filter _ = some t
      rw [Option.filter_some]
      exact if_pos hpub
    | files uris | image => rfl
  · intro x hx
    refine h.uri x ?_
    rw [hphase]
    exact hx
  · intro t ht
    exact h.known_text howners (Option.eq_some_of_filter_eq_some ht)

end

theorem advertise_seen {p : Publication} (hplain : p.plain = true)
    (hknown : s.Seen p ∨ s.echoGuard = p.guarded) (readable : Bool) :
    (s.advertise p.content.gnomeCopied p.content.text readable).1.Seen p := by
  cases p with
  | image => exact trivial
  | text t =>
    have hfile : mentionsFile t = false := by simpa [plain] using hplain
    unfold advertise
    by_cases hguard : s.echoGuard = some t
    · simp [content, hguard, State.Seen]
    · have hseen : s.lastText = some t := hknown.resolve_right hguard
      simp [content, hguard, offer_text_last hfile, hseen, State.Seen]
  | files uris =>
    unfold advertise
    by_cases hguard : s.echoGuard = some (gnomeCopied uris)
    · simp [content, hguard, State.Seen]
    · have hseen : s.lastFiles = some (gnomeCopied uris) := hknown.resolve_right hguard
      simp [content, hguard, offer_files_last, hseen, State.Seen]

theorem Inv.advertise (h : Inv s) (howners : s.owners = []) {u t : Option Text}
    (hphase : s.phase = .boardText u t) (readable : Bool) : Inv (s.advertise u t readable).1 := by
  obtain ⟨lastText, lastFiles, heq⟩ := advertise_frame s u t readable
  refine Inv.of_idle (by rw [heq]) ?_ ?_ ?_
  · intro p hp
    rw [heq] at hp
    obtain ⟨hpub, hplain, hknown⟩ := h.board p hp
    refine ⟨hpub, hplain, ?_⟩
    by_cases himage : p.guarded = none
    · exact Or.inr (Or.inl himage)
    · have hreads := h.reads p hp himage (by simp [hphase])
      have huri : u = p.content.gnomeCopied := by
        rw [← hreads.uri, hphase]
        rfl
      have htext : t = p.content.text := hreads.text u t hphase
      have hknown' : s.Seen p ∨ s.echoGuard = p.guarded := by
        rcases hknown with ⟨-, hseen⟩ | himage' | hguard
        · exact Or.inl hseen
        · exact absurd himage' himage
        · exact Or.inr hguard
      refine Or.inl ⟨?_, ?_⟩
      · rw [heq]
        exact hreads.bound
      · rw [huri, htext]
        exact advertise_seen hplain hknown' readable
  · intro p hp
    rw [heq, show State.owners _ = [] from howners] at hp
    cases hp
  · intro c hc
    rw [heq] at hc ⊢
    exact Or.inl fun x hx => h.copied_local howners hc hx

theorem Inv.poll (h : Inv s) (howners : s.owners = []) (readable : Bool) :
    Inv (s.poll readable).1 := by
  unfold State.poll
  split
  case h_1 hphase => exact h.read_gnomeCopied howners hphase
  case h_2 bytes hphase => exact h.read_uriList howners hphase
  case h_3 u hphase => exact h.read_text howners hphase
  case h_4 u t hphase => exact h.advertise howners hphase readable

theorem Inv.noEcho (h : Inv s) (e : Event) : NoEcho s e := by
  cases e with
  | publish p | own i | copy c | bind => exact trivial
  | poll readable =>
    intro a ha hmem
    unfold State.poll at ha
    split at ha
    case h_1 | h_2 | h_3 => cases ha
    case h_4 u t hphase =>
      rcases advertise_cases ha with ⟨hu, hguard, hlast⟩ | ⟨ht, hguard, hnew⟩
      · have hknown := h.uri a.content (by rw [hphase]; exact hu) hmem
        exact hknown.elim hlast hguard
      · obtain ⟨hfile, hknown⟩ := h.text a.content (by rw [hphase]; exact ht) hmem
        rcases hnew with hfile' | hlast
        · rw [hfile] at hfile'
          cases hfile'
        · exact hknown.elim hlast hguard

theorem Inv.step (h : Inv s) {e : Event} (horderly : Orderly s e) : Inv (Echo.step s e) := by
  cases e with
  | publish p => exact h.publish horderly
  | own i => exact h.own i
  | copy c => exact h.copy c
  | bind => exact h.bind horderly
  | poll readable => exact h.poll horderly readable

end steps

end Linrdp.Clipboard.Echo
