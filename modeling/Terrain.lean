import Terrain.Binary64.Bits
import Terrain.Session
import Terrain.Registry
import Terrain.Proofs.GroupSet
import Terrain.Proofs.Resolver.Surroundings
import Terrain.Proofs.Resolver.FirstMatch
import Terrain.Proofs.RuleSet.Loops
import Terrain.Proofs.RuleSet.Closed
import Terrain.Proofs.Resolver.Answers
import Terrain.Proofs.Session.Coherent
import Terrain.Proofs.Resolver.Strict
import Terrain.Proofs.RuleSet.Naming
import Terrain.Proofs.RuleSet.Relabelling
import Terrain.Proofs.RuleSet.Extension
import Terrain.Proofs.RuleSet.ReadBack
import Terrain.Proofs.RuleSet.Identity
import Terrain.Proofs.Session.Numbering
import Terrain.Proofs.Grid.Edits
import Terrain.Proofs.Grid.Unbounded
import Terrain.Proofs.RuleSet.FirstFault
import Terrain.Proofs.Resolver.Locality
import Terrain.Proofs.Binary64.Rounding
import Terrain.Proofs.Binary64.Whole
import Terrain.Proofs.Resolver.Exact
import Terrain.Proofs.Resolver.LookingBack
import Terrain.Proofs.Resolver.Applying
import Terrain.Proofs.Binary64.Range
import Terrain.Proofs.Decimal.Value
import Terrain.Proofs.Decimal.Notation
import Terrain.Proofs.Decimal.Shortest
import Terrain.Proofs.Ron.Numeral
import Terrain.Proofs.Ron.Quoted
import Terrain.Proofs.Ron.Token
import Terrain.Proofs.Ron.Field
import Terrain.Proofs.Ron.Draft
import Terrain.Proofs.RuleSet.WrittenText
import Terrain.Proofs.FirstMentions
import Terrain.Proofs.RuleSet.Gathering
import Terrain.Proofs.RuleSet.Loosening
import Terrain.Proofs.RuleSet.Clipping
import Terrain.Proofs.Resolver.Selection
import Terrain.Proofs.Binary64.Floor
import Terrain.Proofs.Resolver.FiniteAnswers
import Terrain.Proofs.Resolver.Sampling
import Terrain.Proofs.RuleSet.Blocking
import Terrain.Proofs.RuleSet.Spans
import Terrain.Proofs.GroupSet.Members
import Terrain.Proofs.Resolver.Asking
import Terrain.Proofs.Resolver.Clamping
import Terrain.Proofs.Ron.Form
