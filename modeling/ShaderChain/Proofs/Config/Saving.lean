import ShaderChain.Machine.Launch
import ShaderChain.Proofs.Config.Layering
import ShaderChain.Proofs.Config.RoundTrip
import ShaderChain.Proofs.Machine.Files
import ShaderChain.Proofs.Text.Utf8

/-!
# Configurations in files

A configuration that was saved is loaded again as it was, and one that cannot be
written leaves the file as it was (`config_round_trip`): the directories of the
file are made before the configuration is written out, and the file is touched
only afterwards.
-/

set_option autoImplicit false

namespace ShaderChain

namespace Host

variable {σ : Type} {host : Host (StateM σ)} {path : Path} {proper : σ → Prop} {s s' : σ}

/-- A file that holds the text of a configuration is loaded as the configuration. -/
theorem run_readConfig {c : Config} {text : String} (reads : Config.read? text = some c)
    (content : ((host.read path).run s).1 = .ok (Text.encode text)) :
    ((host.readConfig path).run s).1 = .ok c := by
  cases reading : (host.read path).run s with
  | mk answer t =>
    rw [reading] at content
    dsimp only at content
    subst content
    rw [run_readConfig_eq reading, textOf, Text.decode?_encode]
    dsimp only
    rw [reads]

namespace KeepsContent

variable (law : host.KeepsContent path proper)

include law

/-- The file keeps its content while a directory is made for it, and where that fails it is not for
the configuration. -/
theorem prepareDirectory {p : Path} {answer : Except ConfigError Unit} (start : proper s)
    (ran : (host.prepareDirectory p).run.run s = (answer, s')) :
    proper s' ∧ answer ≠ .error .serialize ∧
      ∀ content, ((host.read path).run s).1 = .ok content →
        ((host.read path).run s').1 = .ok content := by
  rw [Host.prepareDirectory] at ran
  cases above : p.parent? with
  | none =>
    rw [above] at ran
    cases ran
    exact ⟨start, nofun, fun _ => id⟩
  | some parent =>
    rw [above] at ran
    cases made : (host.makeDirectories parent).run s with
    | mk result t =>
      dsimp only at ran
      rw [run_lift_bind_of made] at ran
      have kept := law.makes s t parent result start made
      cases result with
      | ok value =>
        cases ran
        exact ⟨kept, nofun, fun content => law.kept s _ parent _ content start made⟩
      | error cause =>
        cases ran
        exact ⟨kept, nofun, fun content => law.kept s _ parent _ content start made⟩

/-- A configuration that was saved was written out, and its file holds the text. -/
theorem saveConfig_ok {c : Config} (start : proper s)
    (saved : (host.saveConfig c path).run.run s = (.ok (), s')) :
    ∃ text, c.write? = some text ∧ ((host.read path).run s').1 = .ok (Text.encode text) := by
  rw [saveConfig] at saved
  obtain ⟨_, t, prepared, later⟩ := exists_of_run_bind_ok saved
  obtain ⟨here, -, -⟩ := law.prepareDirectory start prepared
  cases written : c.write? with
  | none =>
    rw [written] at later
    cases later
  | some text =>
    rw [written] at later
    dsimp only at later
    refine ⟨text, rfl, ?_⟩
    cases wrote : (host.writeText path text).run t with
    | mk answer u =>
      rw [run_lift_bind_of wrote] at later
      cases answer with
      | error cause => cases later
      | ok value =>
        cases later
        exact law.written t _ _ here wrote

/-- A configuration that was not saved because it cannot be written out left the file as it was. -/
theorem saveConfig_serialize {c : Config} (start : proper s)
    (failed : (host.saveConfig c path).run.run s = (.error .serialize, s')) :
    c.write? = none ∧ ∀ content, ((host.read path).run s).1 = .ok content →
      ((host.read path).run s').1 = .ok content := by
  rw [saveConfig] at failed
  cases prepared : (host.prepareDirectory path).run.run s with
  | mk answer t =>
    obtain ⟨_, otherwise, kept⟩ := law.prepareDirectory start prepared
    rw [ExceptT.run_bind, run_bind_of prepared] at failed
    cases answer with
    | error cause =>
      cases failed
      exact absurd rfl otherwise
    | ok value =>
      cases written : c.write? with
      | none =>
        rw [written] at failed
        cases failed
        exact ⟨rfl, kept⟩
      | some text =>
        rw [written] at failed
        dsimp only at failed
        cases wrote : (host.writeText path text).run t with
        | mk answer u =>
          rw [run_lift_bind_of wrote] at failed
          cases answer with
          | error cause => cases failed
          | ok value => cases failed

end KeepsContent

end Host

/-- **A configuration that is written reads back as it was**, in whatever order the programs and
versions of its tools are written, and the only configurations that cannot be written are those
whose time limit is beyond the integers of TOML. So a file in which a configuration was saved is
loaded as this configuration; and where the configuration cannot be written, the file keeps its
content. -/
theorem config_round_trip (c : Config) :
    (∀ l, c.Listed l →
      (Toml.write? (c.documentListing l) = none ↔
        ∃ s, c.tools = some s ∧ Integer.greatest < s.timeoutSeconds.toNat) ∧
      ∀ text, Toml.write? (c.documentListing l) = some text → Config.read? text = some c) ∧
    (∃ l, c.Listed l ∧ c.write? = Toml.write? (c.documentListing l)) ∧
    ∀ (σ : Type) (host : Host (StateM σ)) (path : Path) (proper : σ → Prop),
      host.KeepsContent path proper → ∀ s s', proper s →
        ((host.saveConfig c path).run.run s = (.ok (), s') →
          ((host.readConfig path).run s').1 = .ok c) ∧
        ((host.saveConfig c path).run.run s = (.error .serialize, s') →
          ∀ content, ((host.read path).run s).1 = .ok content →
            ((host.read path).run s').1 = .ok content) := by
  have listing : c.write? = Toml.write? (c.documentListing c.listing) := by
    rw [Config.documentListing_listing]
    rfl
  refine ⟨?_, ⟨c.listing, c.listed_listing, listing⟩, ?_⟩
  · intro l listed
    exact ⟨c.write_listing_eq_none_iff l, fun text => Config.read_of_write_listing listed⟩
  · intro σ host path proper law s s' start
    constructor
    · intro saved
      obtain ⟨text, written, content⟩ := law.saveConfig_ok start saved
      rw [listing] at written
      exact Host.run_readConfig (Config.read_of_write_listing c.listed_listing written) content
    · intro failed
      exact (law.saveConfig_serialize start failed).2

/-- A configuration with the longest time limit, awkward names, an empty section and an absent
one. -/
def Config.sparse : Config where
  tools := some ⟨none, 9223372036854775807, .ofList [("a b", ⟨"C:\\\"x\""⟩)],
    .ofList [("", []), ("fxc", ["'", "1\n"])]⟩
  pipelines := some ⟨none⟩
  logging := none

/-- A configuration whose time limit is too long by one second. -/
def Config.endless : Config := ⟨some ⟨none, 9223372036854775808, .empty, .empty⟩, none, none⟩

/-- The one is saved in a new directory and loaded again; the other leaves an old file as it
was. -/
theorem config_round_trip_saved :
    let machine : Machine :=
      ⟨Files.empty.put (Location.root.child "old.toml") (.file [0x23] false), .root, .empty, 0⟩
    machine.files.Plain ∧
    (∃ machine', (Machine.scriptHost.saveConfig .sparse ⟨"conf/new.toml"⟩).run.run machine =
        (.ok (), machine') ∧
      ((Machine.scriptHost.readConfig ⟨"conf/new.toml"⟩).run machine').1 = .ok .sparse) ∧
    ∃ machine', (Machine.scriptHost.saveConfig .endless ⟨"old.toml"⟩).run.run machine =
        (.error .serialize, machine') ∧
      ((Machine.scriptHost.read ⟨"old.toml"⟩).run machine').1 = .ok [0x23] := by
  intro machine
  have plain : machine.files.Plain := by
    intro e member
    cases member with
    | head => exact .inr ⟨_, _, rfl⟩
    | tail _ other => cases other
  have saved : ((Machine.scriptHost.saveConfig .sparse ⟨"conf/new.toml"⟩).run.run machine).1 =
      .ok () := by
    decide +kernel
  have failed : ((Machine.scriptHost.saveConfig .endless ⟨"old.toml"⟩).run.run machine).1 =
      .error .serialize := by
    decide +kernel
  have old : ((Machine.scriptHost.read ⟨"old.toml"⟩).run machine).1 = .ok [0x23] := by
    decide +kernel
  have newLaw := Machine.keepsContent Machine.launch ⟨"conf/new.toml"⟩
  have oldLaw := Machine.keepsContent Machine.launch ⟨"old.toml"⟩
  refine ⟨plain, ⟨_, Prod.ext saved rfl, ?_⟩, ⟨_, Prod.ext failed rfl, ?_⟩⟩
  · exact ((config_round_trip .sparse).2.2 _ _ _ _ newLaw _ _ plain).1 (Prod.ext saved rfl)
  · exact ((config_round_trip .endless).2.2 _ _ _ _ oldLaw _ _ plain).2 (Prod.ext failed rfl) _ old

end ShaderChain
