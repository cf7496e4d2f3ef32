import LintRatchet.Proofs.Store.File

/-!
# What a file is loaded as

Loading reads the text of the file, decodes it and normalizes the baseline.  So
what is loaded depends on the content that the file lists (`Lists`) and not on
how it is arranged there.

Main statement: normalizing brings a baseline into canonical form and keeps its
content, and two files load alike exactly when they list the same content.  So
the entries of a file may be put into another order by hand, and a fingerprint
may stand there repeatedly.  A finding may not: it is kept as often as it
occurs (`tryLoad_repeated_finding`).
-/

namespace LintRatchet

namespace FileStore

variable {s t : FileStore} {a b : Baseline} {text : String}

/-- Bytes that are read make a text when they are UTF-8. -/
theorem readText_of_read {tree : FileTree} {path : String} {bytes : ByteArray}
    (h : tree.read path = .ok bytes) :
    tree.readText path =
      match String.fromUTF8? bytes with
      | some text => .ok text
      | none => .error .notText := by
  rw [FileTree.readText, h]
  rfl

theorem present_of_read {tree : FileTree} {path : String} {bytes : ByteArray}
    (h : tree.read path = .ok bytes) : tree.present path = true := by
  obtain ⟨l, hl, -⟩ := FileTree.bind_eq_ok_iff.mp h
  rw [FileTree.present, hl]

/-- What can be read is loaded as what it decodes to. -/
theorem tryLoad_of_readText (h : s.tree.readText s.path = .ok text) :
    s.tryLoad =
      match Baseline.decode text with
      | .error e => .error (.undecodable s.path e)
      | .ok b => .ok (some b.normalize) := by
  obtain ⟨bytes, hread, -⟩ := FileTree.bind_eq_ok_iff.mp h
  unfold tryLoad
  rw [present_of_read hread, h]
  rfl

/-- The bytes are a document of the baseline, in whatever layout and order. -/
def Documents (bytes : ByteArray) (b : Baseline) : Prop :=
  ∃ text, String.fromUTF8? bytes = some text ∧ Baseline.decode text = .ok b

theorem documents_compact (b : Baseline) : Documents b.toValue.compact.toUTF8 b :=
  ⟨_, fromUTF8?_toUTF8 _, (Baseline.written Json.Layout.isBlank_compact b).readAll.1⟩

/-- The file of the store is a document of the baseline. -/
def Lists (s : FileStore) (b : Baseline) : Prop :=
  ∃ bytes, s.tree.read s.path = .ok bytes ∧ Documents bytes b

/-- What a file lists is loaded in canonical form. -/
theorem Lists.tryLoad (h : s.Lists b) : s.tryLoad = .ok (some b.normalize) := by
  obtain ⟨bytes, hread, text, hsome, hdecode⟩ := h
  have htext := readText_of_read hread
  rw [hsome] at htext
  rw [tryLoad_of_readText htext, hdecode]

/-- Normalizing makes the canonical form of a baseline, which stands for its version, its set of
fingerprints and its findings with their number.  Two files load alike exactly when they list the
same of these, in whatever order and however often a fingerprint is repeated. -/
theorem normalize_canonicalizes :
    (∀ b : Baseline, b.normalize.Canonical ∧ b.normalize.SameContent b) ∧
    (∀ a b : Baseline, a.normalize = b.normalize ↔ a.SameContent b) ∧
    (∀ b : Baseline, b.normalize.normalize = b.normalize) ∧
    (∀ (fs : List Finding) (v : String),
      (Baseline.ofFindings fs v).normalize = Baseline.ofFindings fs v) ∧
    ∀ {s t : FileStore} {a b : Baseline}, s.Lists a → t.Lists b →
      s.tryLoad = .ok (some a.normalize) ∧ (s.tryLoad = t.tryLoad ↔ a.SameContent b) := by
  refine ⟨fun b => ⟨b.canonical_normalize, b.sameContent_normalize⟩,
    fun a b => Baseline.normalize_eq_normalize_iff, fun b => b.canonical_normalize.normalize_eq,
    Baseline.normalize_ofFindings, ?_⟩
  intro s t a b hs ht
  refine ⟨hs.tryLoad, ?_⟩
  rw [hs.tryLoad, ht.tryLoad, Except.ok.injEq, Option.some.injEq]
  exact Baseline.normalize_eq_normalize_iff

/-- A store whose file is the only one of its tree. -/
def alone (bytes : ByteArray) : FileStore where
  tree := (⟨[], []⟩ : FileTree).put ["b.json"] (.file bytes)
  path := "/b.json"

theorem ready_alone (bytes : ByteArray) : Ready (alone bytes).tree "/b.json" ["b.json"] :=
  Ready.put ⟨by decide +kernel, ⟨[], "b.json", by decide +kernel, rfl⟩, rfl⟩ bytes

theorem lists_alone (b : Baseline) : (alone b.toValue.compact.toUTF8).Lists b :=
  ⟨_, (ready_alone _).leads.read rfl, documents_compact b⟩

/-- Both lists are in another order, and a fingerprint is there twice. -/
theorem tryLoad_rearranged :
    let f : Finding := ⟨"no-var", "a.js", 3, "old"⟩
    let g : Finding := ⟨"no-var", "a.js", 3, "new"⟩
    let a : Baseline := ⟨"1.9", ["0a", "1b"], [g, f, f]⟩
    let b : Baseline := ⟨"1.9", ["1b", "0a", "1b"], [f, g, f]⟩
    let s := alone a.toValue.compact.toUTF8
    let t := alone b.toValue.compact.toUTF8
    s.Lists a ∧ t.Lists b ∧ a.SameContent b ∧ s.tryLoad = .ok (some a.normalize) ∧
      s.tryLoad = t.tryLoad := by
  intro f g a b s t
  have hsame : a.SameContent b := ⟨rfl, by simp [a, b], List.Perm.swap f g [f]⟩
  obtain ⟨-, -, -, -, hfiles⟩ := normalize_canonicalizes
  obtain ⟨hload, hiff⟩ := hfiles (lists_alone a) (lists_alone b)
  exact ⟨lists_alone a, lists_alone b, hsame, hload, hiff.mpr hsame⟩

/-- A finding that is repeated in a file is loaded as often as it stands there. -/
theorem tryLoad_repeated_finding :
    let f : Finding := ⟨"no-var", "a.js", 3, "old"⟩
    let a : Baseline := ⟨"1.9", [f.fingerprint], [f]⟩
    let b : Baseline := ⟨"1.9", [f.fingerprint], [f, f]⟩
    let s := alone a.toValue.compact.toUTF8
    let t := alone b.toValue.compact.toUTF8
    s.Lists a ∧ t.Lists b ∧ t.tryLoad ≠ s.tryLoad := by
  intro f a b s t
  refine ⟨lists_alone a, lists_alone b, fun heq => ?_⟩
  rw [(lists_alone a).tryLoad, (lists_alone b).tryLoad, Except.ok.injEq, Option.some.injEq,
    Baseline.normalize_eq_normalize_iff] at heq
  exact absurd heq.errors.length_eq (by decide)

end FileStore

end LintRatchet
