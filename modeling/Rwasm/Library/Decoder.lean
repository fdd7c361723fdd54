import Mathlib

/-!
# Decoders

Decoders of a stream: functions that read symbols from the front of a list, fail with an error or
break off with a panic, and keep a record of the space they reserve. A decoder that only looks at
what it reads is *local*; together with a round trip this is what makes an encoding prefix free.

Nothing here depends on what is decoded.
-/

namespace Codec

/-- A request for space: for how many elements of which kind, and how many symbols were left to read. -/
structure Reservation (κ : Type) where
  kind : κ
  count : Nat
  left : Nat
  deriving DecidableEq

/-- The symbols that are left, and the space reserved so far, latest first. -/
structure Reader (κ β : Type) where
  symbols : List β
  reserved : List (Reservation κ) := []
  deriving DecidableEq

/-- Why a decoder stops: it reports an error, or panics. -/
inductive Stop (ε : Type) where
  | error (e : ε)
  | panic
  deriving DecidableEq

/-- A decoder of an `α`. -/
def Decoder (κ β ε α : Type) : Type :=
  Reader κ β → Except (Stop ε) α × Reader κ β

namespace Decoder

variable {κ β ε α γ δ : Type}

/-- A decoder goes on where the one before it stopped reading. -/
instance : Monad (Decoder κ β ε) where
  pure a := fun r => (.ok a, r)
  bind d f := fun r =>
    match d r with
    | (.ok a, r) => f a r
    | (.error e, r) => (.error e, r)

/-- Reports an error. -/
def fail (e : ε) : Decoder κ β ε α :=
  fun r => (.error (.error e), r)

/-- Reads the next `n` symbols; `short` makes the error of the number of missing ones. -/
def take (short : Nat → ε) (n : Nat) : Decoder κ β ε (List β) :=
  fun r =>
    if n ≤ r.symbols.length then (.ok (r.symbols.take n), { r with symbols := r.symbols.drop n })
    else (.error (.error (short (n - r.symbols.length))), r)

/-- Reserves space for `n` elements of a kind, of which no more than `limit` can be asked for. -/
def reserve (kind : κ) (limit n : Nat) : Decoder κ β ε Unit :=
  fun r =>
    if limit < n then (.error .panic, r)
    else (.ok (), { r with reserved := ⟨kind, n, r.symbols.length⟩ :: r.reserved })

/-- Runs a decoder `n` times. -/
def times (d : Decoder κ β ε α) : Nat → Decoder κ β ε (List α)
  | 0 => pure []
  | n + 1 => do
    let a ← d
    let as ← d.times n
    pure (a :: as)

/-- Falls back to a value on the errors that `optional` accepts. -/
def orDefault (d : Decoder κ β ε α) (optional : ε → Bool) (default : α) : Decoder κ β ε α :=
  fun r =>
    match d r with
    | (.error (.error e), r) => if optional e then (.ok default, r) else (.error (.error e), r)
    | out => out

variable {d : Decoder κ β ε α} {f : α → Decoder κ β ε γ} {r r' : Reader κ β} {a : α} {bs bs' : List β}

/-- A sequence goes on with what its first part decodes. -/
lemma bind_ok (h : d r = (.ok a, r')) : (d >>= f) r = f a r' := by
  show (match d r with
    | (.ok a, r) => f a r
    | (.error e, r) => (.error e, r)) = _
  rw [h]

/-- A sequence stops where its first part does. -/
lemma bind_stop {e} (h : d r = (.error e, r')) : (d >>= f) r = (.error e, r') := by
  show (match d r with
    | (.ok a, r) => f a r
    | (.error e, r) => (.error e, r)) = _
  rw [h]

/-- Sequences associate. -/
lemma bind_bind (d : Decoder κ β ε α) (f : α → Decoder κ β ε γ) (g : γ → Decoder κ β ε δ) :
    d >>= f >>= g = d >>= fun a => f a >>= g := by
  funext r
  rcases hd : d r with ⟨e | a, r'⟩
  · rw [bind_stop hd, bind_stop (bind_stop hd)]
  · rw [bind_ok hd]
    rcases hf : f a r' with ⟨e | c, r''⟩
    · rw [bind_stop hf, bind_stop ((bind_ok hd).trans hf)]
    · rw [bind_ok hf, bind_ok ((bind_ok hd).trans hf)]

section Codes

/-- The decoder takes `bs` for `a`, whatever follows, and reports an error where `bs` is cut off. -/
structure Codes (d : Decoder κ β ε α) (bs : List β) (a : α) : Prop where
  reads : ∀ tail reserved, ∃ reserved',
    d ⟨bs ++ tail, reserved⟩ = (.ok a, ⟨tail, reserved'⟩)
  truncated : ∀ p, p <+: bs → p ≠ bs → ∀ reserved, ∃ e r,
    d ⟨p, reserved⟩ = (.error (.error e), r)

/-- A decoder that reads nothing takes nothing. -/
lemma Codes.pure (a : α) : (pure a : Decoder κ β ε α).Codes [] a where
  reads _ reserved := ⟨reserved, rfl⟩
  truncated _ h ne := absurd (List.prefix_nil.mp h) ne

/-- A word is cut off when symbols of it are missing. -/
lemma Codes.take (short : Nat → ε) (bs : List β) :
    (take short bs.length : Decoder κ β ε (List β)).Codes bs bs where
  reads tail reserved := by
    have fits : bs.length ≤ (bs ++ tail).length := by simp
    refine ⟨reserved, ?_⟩
    rw [Decoder.take, if_pos fits, List.take_left, List.drop_left]
  truncated p h ne reserved := by
    have lt : p.length < bs.length :=
      lt_of_le_of_ne h.length_le fun eq => ne (h.eq_of_length eq)
    exact ⟨_, _, if_neg (Nat.not_le.mpr lt)⟩

/-- Space that can be asked for is reserved, and nothing is read. -/
lemma Codes.reserve {kind : κ} {limit n : Nat} (h : n ≤ limit) :
    (reserve kind limit n : Decoder κ β ε Unit).Codes [] () where
  reads _ _ := ⟨_, if_neg (Nat.not_lt.mpr h)⟩
  truncated _ hp ne := absurd (List.prefix_nil.mp hp) ne

/-- A proper prefix of two parts is cut off in the first part or in the second. -/
lemma prefix_append_cases {p : List β} (h : p <+: bs ++ bs') (ne : p ≠ bs ++ bs') :
    (p <+: bs ∧ p ≠ bs) ∨ ∃ q, p = bs ++ q ∧ q <+: bs' ∧ q ≠ bs' := by
  rcases List.prefix_or_prefix_of_prefix h (List.prefix_append bs bs') with first | ⟨q, rfl⟩
  · rcases eq_or_ne p bs with rfl | short
    · refine .inr ⟨[], (List.append_nil p).symm, List.nil_prefix, fun eq => ne ?_⟩
      rw [← eq, List.append_nil]
    · exact .inl ⟨first, short⟩
  · refine .inr ⟨q, rfl, (List.prefix_append_right_inj bs).mp h, fun eq => ne ?_⟩
    rw [eq]

/-- Two decoders take two words, one behind the other. -/
lemma Codes.bind {c : γ} (hd : d.Codes bs a) (hf : (f a).Codes bs' c) :
    (d >>= f).Codes (bs ++ bs') c where
  reads tail reserved := by
    obtain ⟨reserved₁, first⟩ := hd.reads (bs' ++ tail) reserved
    obtain ⟨reserved₂, second⟩ := hf.reads tail reserved₁
    refine ⟨reserved₂, ?_⟩
    rw [List.append_assoc, bind_ok first, second]
  truncated p h ne reserved := by
    rcases prefix_append_cases h ne with ⟨h, ne⟩ | ⟨q, rfl, h, ne⟩
    · obtain ⟨e, r, stop⟩ := hd.truncated p h ne reserved
      exact ⟨e, r, bind_stop stop⟩
    · obtain ⟨reserved₁, first⟩ := hd.reads q reserved
      obtain ⟨e, r, stop⟩ := hf.truncated q h ne reserved₁
      exact ⟨e, r, (bind_ok first).trans stop⟩

/-- A last part that reads nothing. -/
lemma Codes.bind_nil {c : γ} (hd : d.Codes bs a) (hf : (f a).Codes [] c) : (d >>= f).Codes bs c := by
  simpa using hd.bind hf

/-- The decoder of a list takes the encodings of its elements one after another. -/
lemma Codes.times {encode : δ → List β} {read : δ → α} {xs : List δ}
    (h : ∀ x ∈ xs, d.Codes (encode x) (read x)) :
    (d.times xs.length).Codes (xs.flatMap encode) (xs.map read) := by
  induction xs with
  | nil => exact .pure []
  | cons x xs ih =>
    have first := h x List.mem_cons_self
    have rest := ih fun y hy => h y (List.mem_cons_of_mem x hy)
    exact first.bind (rest.bind_nil (.pure _))

/-- The decoder takes `bs` for `a`, and its prefix `core`, when nothing follows, for `a'`; it reports
an error where `bs` is cut off elsewhere. -/
structure CodesOptional (d : Decoder κ β ε α) (bs : List β) (a : α) (core : List β) (a' : α) :
    Prop where
  reads : ∀ tail reserved, ∃ reserved',
    d ⟨bs ++ tail, reserved⟩ = (.ok a, ⟨tail, reserved'⟩)
  readsCore : ∀ reserved, ∃ reserved', d ⟨core, reserved⟩ = (.ok a', ⟨[], reserved'⟩)
  truncated : ∀ p, p <+: bs → p ≠ bs → p ≠ core → ∀ reserved, ∃ e r,
    d ⟨p, reserved⟩ = (.error (.error e), r)

/-- What is optional in the second word is optional in both. -/
lemma CodesOptional.bind {core : List β} {c c' : γ} (hd : d.Codes bs a)
    (hf : (f a).CodesOptional bs' c core c') :
    (d >>= f).CodesOptional (bs ++ bs') c (bs ++ core) c' where
  reads tail reserved := by
    obtain ⟨reserved₁, first⟩ := hd.reads (bs' ++ tail) reserved
    obtain ⟨reserved₂, second⟩ := hf.reads tail reserved₁
    refine ⟨reserved₂, ?_⟩
    rw [List.append_assoc, bind_ok first, second]
  readsCore reserved := by
    obtain ⟨reserved₁, first⟩ := hd.reads core reserved
    obtain ⟨reserved₂, second⟩ := hf.readsCore reserved₁
    exact ⟨reserved₂, (bind_ok first).trans second⟩
  truncated p h ne neCore reserved := by
    rcases prefix_append_cases h ne with ⟨h, ne⟩ | ⟨q, rfl, h, ne⟩
    · obtain ⟨e, r, stop⟩ := hd.truncated p h ne reserved
      exact ⟨e, r, bind_stop stop⟩
    · obtain ⟨reserved₁, first⟩ := hd.reads q reserved
      obtain ⟨e, r, stop⟩ := hf.truncated q h ne (fun eq => neCore (by rw [eq])) reserved₁
      exact ⟨e, r, (bind_ok first).trans stop⟩

/-- A last part that may be missing. -/
lemma CodesOptional.bind_nil {c c' : γ} (hd : d.Codes bs a)
    (hf : (f a).CodesOptional bs' c [] c') : (d >>= f).CodesOptional (bs ++ bs') c bs c' := by
  simpa only [List.append_nil] using CodesOptional.bind hd hf

/-- A last part that makes something of both values and reads nothing. -/
lemma CodesOptional.map {core : List β} {a' : α} (hd : d.CodesOptional bs a core a')
    (g : α → γ) : (d >>= fun a => Pure.pure (g a)).CodesOptional bs (g a) core (g a') where
  reads tail reserved := by
    obtain ⟨reserved', first⟩ := hd.reads tail reserved
    exact ⟨reserved', bind_ok first⟩
  readsCore reserved := by
    obtain ⟨reserved', first⟩ := hd.readsCore reserved
    exact ⟨reserved', bind_ok first⟩
  truncated p h ne neCore reserved := by
    obtain ⟨e, r, stop⟩ := hd.truncated p h ne neCore reserved
    exact ⟨e, r, bind_stop stop⟩

/-- A word that is cut off reports how many symbols are missing. -/
lemma take_of_lt {short : Nat → ε} {n : Nat} (h : r.symbols.length < n) :
    take short n r = (.error (.error (short (n - r.symbols.length))), r) :=
  if_neg (Nat.not_le.mpr h)

/-- An optional word: it may be missing as a whole, but not in part. -/
lemma CodesOptional.word {short : Nat → ε} {optional : ε → Bool} {g : List β → α} {default : α}
    (pos : 0 < bs.length) (missing : optional (short bs.length) = true)
    (part : ∀ n, n < bs.length → optional (short n) = false) :
    (((Decoder.take short bs.length : Decoder κ β ε (List β)) >>= fun bs => Pure.pure (g bs)).orDefault
      optional default).CodesOptional bs (g bs) [] default where
  reads tail reserved := by
    obtain ⟨reserved', word⟩ := (Codes.take short bs).reads tail reserved
    refine ⟨reserved', ?_⟩
    rw [orDefault, bind_ok word]
    rfl
  readsCore reserved := by
    have stop : Decoder.take short bs.length (⟨[], reserved⟩ : Reader κ β) = _ := take_of_lt pos
    refine ⟨reserved, ?_⟩
    rw [orDefault, bind_stop stop]
    simp [missing]
  truncated p h ne neCore reserved := by
    have lt : p.length < bs.length :=
      lt_of_le_of_ne h.length_le fun eq => ne (h.eq_of_length eq)
    have pos : 0 < p.length := List.length_pos_iff.mpr neCore
    have stop : Decoder.take short bs.length ⟨p, reserved⟩ = _ := take_of_lt lt
    refine ⟨short (bs.length - p.length), ⟨p, reserved⟩, ?_⟩
    rw [orDefault, bind_stop stop]
    simp [part (bs.length - p.length) (by omega)]

end Codes

section Contained

/-- The decoder neither panics nor reserves space, and what is reserved before makes no difference to
it. -/
def Contained (d : Decoder κ β ε α) : Prop :=
  ∀ bs, ∃ (out : Except ε α) (rest : List β), ∀ reserved,
    d ⟨bs, reserved⟩ = (out.mapError .error, ⟨rest, reserved⟩)

/-- A decoder that reads nothing is contained. -/
lemma Contained.pure (a : α) : (pure a : Decoder κ β ε α).Contained :=
  fun bs => ⟨.ok a, bs, fun _ => rfl⟩

/-- So is one that reports an error. -/
lemma Contained.fail (e : ε) : (fail e : Decoder κ β ε α).Contained :=
  fun bs => ⟨.error e, bs, fun _ => rfl⟩

/-- So is one that takes a number of symbols. -/
lemma Contained.take (short : Nat → ε) (n : Nat) :
    (take short n : Decoder κ β ε (List β)).Contained := by
  intro bs
  by_cases fits : n ≤ bs.length
  · exact ⟨.ok (bs.take n), bs.drop n, fun _ => if_pos fits⟩
  · exact ⟨.error (short (n - bs.length)), bs, fun _ => if_neg fits⟩

/-- Two contained decoders, one behind the other. -/
lemma Contained.bind (hd : d.Contained) (hf : ∀ a, (f a).Contained) : (d >>= f).Contained := by
  intro bs
  obtain ⟨out, rest, eq⟩ := hd bs
  cases out with
  | error e => exact ⟨.error e, rest, fun reserved => bind_stop (eq reserved)⟩
  | ok a =>
    obtain ⟨out, rest', eq'⟩ := hf a rest
    exact ⟨out, rest', fun reserved => (bind_ok (eq reserved)).trans (eq' reserved)⟩

/-- A contained decoder, a number of times. -/
lemma Contained.times (hd : d.Contained) (n : Nat) : (d.times n).Contained := by
  induction n with
  | zero => exact .pure []
  | succ n ih => exact hd.bind fun a => ih.bind fun as => .pure (a :: as)

/-- A contained decoder whose word may be missing. -/
lemma Contained.orDefault (hd : d.Contained) (optional : ε → Bool) (default : α) :
    (d.orDefault optional default).Contained := by
  intro bs
  obtain ⟨out, rest, eq⟩ := hd bs
  cases out with
  | ok a =>
    refine ⟨.ok a, rest, fun reserved => ?_⟩
    rw [Decoder.orDefault, eq]
    rfl
  | error e =>
    by_cases accepted : optional e
    · refine ⟨.ok default, rest, fun reserved => ?_⟩
      rw [Decoder.orDefault, eq]
      exact if_pos accepted
    · refine ⟨.error e, rest, fun reserved => ?_⟩
      rw [Decoder.orDefault, eq]
      exact if_neg accepted

end Contained

section Claims

/-- What the decoder asks for depends on what it reads in the way `asks` says: it panics where it asks
for more than `limit` allows, and otherwise reserves exactly what it asks for. -/
def Claims (d : Decoder κ β ε α) (limit : κ → Nat) (asks : List β → List (Reservation κ)) : Prop :=
  ∀ bs reserved,
    ((∀ r ∈ asks bs, r.count ≤ limit r.kind) →
      (d ⟨bs, reserved⟩).1 ≠ .error .panic ∧
        (d ⟨bs, reserved⟩).2.reserved = (asks bs).reverse ++ reserved) ∧
    ((∃ r ∈ asks bs, limit r.kind < r.count) → (d ⟨bs, reserved⟩).1 = .error .panic)

variable {limit : κ → Nat} {asks : List β → List (Reservation κ)}

/-- A decoder that reserves nothing asks for nothing. -/
lemma Contained.claims (hd : d.Contained) : d.Claims limit fun _ => [] := by
  intro bs reserved
  obtain ⟨out, rest, eq⟩ := hd bs
  rw [eq]
  refine ⟨fun _ => ⟨?_, rfl⟩, fun ⟨_, mem, _⟩ => absurd mem List.not_mem_nil⟩
  cases out with
  | ok a => exact nofun
  | error e => exact nofun

/-- The decoder reserves nothing, reports an error where `rests` is undefined, and otherwise leaves what
`rests` says. -/
def Skips (d : Decoder κ β ε α) (rests : List β → Option (List β)) : Prop :=
  ∀ bs reserved, match rests bs with
    | some rest => ∃ a, d ⟨bs, reserved⟩ = (.ok a, ⟨rest, reserved⟩)
    | none => ∃ e rest, d ⟨bs, reserved⟩ = (.error (.error e), ⟨rest, reserved⟩)

/-- What a first part that reserves nothing leaves to read decides what the second asks for. -/
lemma Claims.bind {rests : List β → Option (List β)} (left : d.Skips rests)
    (hf : ∀ a, (f a).Claims limit asks) :
    (d >>= f).Claims limit fun bs => (rests bs).elim [] asks := by
  intro bs reserved
  have here := left bs reserved
  dsimp only
  cases skipped : rests bs with
  | some rest =>
    rw [skipped] at here
    obtain ⟨a, eq⟩ := here
    rw [bind_ok eq]
    exact hf a rest reserved
  | none =>
    rw [skipped] at here
    obtain ⟨e, rest, eq⟩ := here
    rw [bind_stop eq]
    exact ⟨fun _ => ⟨nofun, rfl⟩, fun ⟨_, mem, _⟩ => absurd mem List.not_mem_nil⟩

/-- A reservation comes before what the rest asks for. -/
lemma Claims.reserve {kind : κ} {n : Nat} (hd : d.Claims limit asks) :
    ((Decoder.reserve kind (limit kind) n : Decoder κ β ε Unit) >>= fun _ => d).Claims limit
      fun bs => ⟨kind, n, bs.length⟩ :: asks bs := by
  intro bs reserved
  obtain ⟨calm, loud⟩ := hd bs (⟨kind, n, bs.length⟩ :: reserved)
  by_cases more : limit kind < n
  · have stop : (Decoder.reserve kind (limit kind) n : Decoder κ β ε Unit) ⟨bs, reserved⟩ =
        (.error .panic, ⟨bs, reserved⟩) := if_pos more
    rw [bind_stop stop]
    refine ⟨fun all => ?_, fun _ => rfl⟩
    exact absurd (all _ List.mem_cons_self) (Nat.not_le.mpr more)
  · have go : (Decoder.reserve kind (limit kind) n : Decoder κ β ε Unit) ⟨bs, reserved⟩ =
        (.ok (), ⟨bs, ⟨kind, n, bs.length⟩ :: reserved⟩) := if_neg more
    rw [bind_ok go]
    refine ⟨fun all => ?_, ?_⟩
    · obtain ⟨ne, eq⟩ := calm fun r mem => all r (List.mem_cons_of_mem _ mem)
      refine ⟨ne, eq.trans ?_⟩
      rw [List.reverse_cons, List.append_assoc]
      rfl
    · rintro ⟨r, mem, gt⟩
      rcases List.mem_cons.mp mem with rfl | mem
      · exact absurd gt more
      · exact loud ⟨r, mem, gt⟩

end Claims

end Decoder

end Codec
