/-
# Batches that are compiled along with others

All batches of a run take the identities of their nodes from one supply, which gives none twice.
Batches that run at once draw from it in any order, so which identities a batch gets is not told
from its files; how many it draws is (`drawn`), and which of them each node gets, too.  So what a
batch compiles is told from the identities that it is given (`allotted`), and these may be any, as
long as no two draws of the run are given the same one (`GivenOnce`).
-/

import ActorLtl.Batch.Source
import ActorLtl.Expression.Allotment

namespace ActorLtl
namespace Batch

/-- How many identities a batch draws. -/
def drawn (files : Files Id) (source : BatchSource) : Nat :=
  ((compile (fileCompilers files) source).run 0).2

/-- The compilers of JSON files, if a batch is given these identities, `given i` when it draws for
the `i`-th time. -/
def allotted (files : Files Id) (given : Nat → NodeId) : Compilers Id where
  compileModel path := readModel files path
  compileProperties model path :=
    ((readProperties files model path).run 0).1.map (PropertyModel.mapIds given)

/-- The identities of the nodes in what is compiled. -/
def compiledIds : Except SourceError PropertyModel → List NodeId
  | .ok p => p.ids
  | .error _ => []

/-- Whether no identity is given twice in a run: neither to two draws of one batch nor to draws of
two batches.  Batches are known by the positions of their sources, for a source may occur more
than once. -/
def GivenOnce (files : Files Id) (sources : List BatchSource) (given : Nat → Nat → NodeId) : Prop :=
  ∀ (k k' : Nat) (source source' : BatchSource), sources[k]? = some source →
    sources[k']? = some source' → ∀ i < drawn files source, ∀ i' < drawn files source',
      given k i = given k' i' → k = k' ∧ i = i'

end Batch
end ActorLtl
