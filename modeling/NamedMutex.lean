import NamedMutex.Main
import NamedMutex.Scenario.Run
import NamedMutex.Proofs.Contention
import NamedMutex.Proofs.Race
import NamedMutex.Proofs.Stamping
import NamedMutex.Proofs.Custody
import NamedMutex.Proofs.Guards
import NamedMutex.Proofs.Refinement
import NamedMutex.Proofs.Spellings
import NamedMutex.Proofs.Removals
import NamedMutex.Proofs.Outcomes
import NamedMutex.Proofs.Neighbours
import NamedMutex.Proofs.Dialogues
import NamedMutex.Proofs.Series
import NamedMutex.Proofs.Budgets
import NamedMutex.Proofs.Faults
import NamedMutex.Proofs.Leftovers
import NamedMutex.Proofs.Furnishings
import NamedMutex.Proofs.Solitude
import NamedMutex.Proofs.Failures
import NamedMutex.Proofs.Confinement
import NamedMutex.Proofs.Releases
import NamedMutex.Proofs.Magnitudes
import NamedMutex.Proofs.TimeLimits
import NamedMutex.Proofs.Lifetimes
import NamedMutex.Proofs.Brackets
import NamedMutex.Proofs.Codec
import NamedMutex.Proofs.Reclaims
import NamedMutex.Proofs.HashedNames
import NamedMutex.Proofs.Refusals
import NamedMutex.Proofs.Settings
import NamedMutex.Proofs.Listeners
