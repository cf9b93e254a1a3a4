import LayeredConfig.Proofs.Source.Construction

/-!
# Sources leave the configuration alone

To construct a source may construct a disk and a parser as well, which stay with their factories.
Nothing of it touches the configuration, as long as the drivers of disks and parsers do not.

## Key results

- `FileSource.respects_create`: file sources leave the configuration alone
- `Workshop.Steady.get`: so does a factory, whatever is got from it
-/

namespace LayeredConfig

namespace Workshop

/-- The drivers of disks and parsers leave the configuration alone. -/
structure Spared (w : Workshop) : Prop where
  disks : w.disks.Respects Eq
  parsers : w.parsers.Respects Eq

/-- The configuration of one workshop is that of another, unless its drivers do something to it. -/
def Untouched (w w' : Workshop) : Prop := w.Spared → w'.config = w.config ∧ w'.Spared

theorem Untouched.refl (w : Workshop) : w.Untouched w := fun h => ⟨rfl, h⟩

/-- A workshop that stays untouched step by step stays untouched. -/
theorem Untouched.trans {w w' w'' : Workshop} (h : w.Untouched w') (h' : w'.Untouched w'') :
    w.Untouched w'' := by
  intro hspared
  obtain ⟨hconfig, hspared'⟩ := h hspared
  obtain ⟨hconfig', hspared''⟩ := h' hspared'
  exact ⟨hconfig'.trans hconfig, hspared''⟩

/-- To get a disk leaves the configuration alone if drivers of disks do. -/
theorem respects_onDisks (diskId : String) :
    (onDisks (Factory.get diskId)).Respects Untouched := by
  intro w h
  have hconfig := (h.disks.get Eq.refl diskId w.config).symm
  -- The factory keeps its creators, so they are still harmless afterwards.
  obtain ⟨m, hm⟩ := Factory.factory_get_eq_keeping w.disks w.config diskId
  refine ⟨hconfig, ⟨?_, h.parsers⟩⟩
  simp only [onDisks, Act.within, hm]
  exact h.disks

/-- To get a parser leaves the configuration alone if drivers of parsers do. -/
theorem respects_onParsers (parserId : String) :
    (onParsers (Factory.get parserId)).Respects Untouched := by
  intro w h
  have hconfig := (h.parsers.get Eq.refl parserId w.config).symm
  obtain ⟨m, hm⟩ := Factory.factory_get_eq_keeping w.parsers w.config parserId
  refine ⟨hconfig, ⟨h.disks, ?_⟩⟩
  simp only [onParsers, Act.within, hm]
  exact h.parsers

/-- A factory of sources: it is defined by the view of the configuration. -/
structure Sourcing (f : Factory Workshop Bag) : Prop where
  path : f.path = sourcesPath
  view : ∀ w, f.view w = w.config.merged

/-- No driver of a factory of sources touches the configuration, and none of those behind them. -/
structure Steady (p : Factory Workshop Bag × Workshop) : Prop where
  sources : p.1.Respects Untouched
  spared : p.2.Spared

/-- To get a source leaves the configuration alone. -/
theorem Steady.get {p : Factory Workshop Bag × Workshop} (h : Steady p) (id : String) :
    (Factory.get id p).state.2.config = p.2.config ∧ Steady (Factory.get id p).state := by
  obtain ⟨f, w⟩ := p
  -- Whoever is called, the relation holds from before to after.
  obtain ⟨hconfig, hspared⟩ := h.sources.get Untouched.refl id w h.spared
  obtain ⟨m, hm⟩ := Factory.factory_get_eq_keeping f w id
  refine ⟨hconfig, ?_, hspared⟩
  rw [hm]
  exact h.sources

/-- What happens to the configuration otherwise is nothing to the factories. -/
theorem Steady.reconfigured {f : Factory Workshop Bag} {w : Workshop} (h : Steady (f, w))
    (config : Config) : Steady (f, { w with config }) :=
  ⟨h.sources, ⟨h.spared.disks, h.spared.parsers⟩⟩

end Workshop

/-- Files are read after the disk and the parser were got. -/
theorem FileSource.respects_create (id : String) (fields : Bag) :
    (FileSource.create id fields).Respects Workshop.Untouched := by
  intro w
  -- Disk, parser and file in turn, the last of which needs no state at all.
  have hfurnish (n : Names) : (furnish w.around id n).Respects Workshop.Untouched := by
    refine (Workshop.respects_onDisks n.diskId).bind .trans fun disk => ?_
    refine (Workshop.respects_onParsers n.parserId).bind .trans fun parser => ?_
    exact ((blind_readFrom _ disk n.path parser).mapError _).respects .refl
  rw [create_apply]
  -- To check the fields changes nothing.
  exact ((Act.blind_ofExcept _).respects .refl).bind .trans hfurnish w

/-- Sources of variables do not even look at it. -/
theorem EnvSource.respects_creator (id : String) (fields : Bag) :
    (EnvSource.creator id fields).Respects Workshop.Untouched := by
  intro w
  rw [creator_apply]
  exact (blind_create w.around _).respects .refl w

end LayeredConfig
