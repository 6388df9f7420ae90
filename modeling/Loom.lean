import Loom.Engine
import Loom.Main
import Loom.Proofs.Agreement
import Loom.Proofs.Complaint
import Loom.Proofs.Enforcement
import Loom.Proofs.Envelope
import Loom.Proofs.Factorial
import Loom.Proofs.Failure
import Loom.Proofs.Indentation
import Loom.Proofs.LastGood
import Loom.Proofs.Limit
import Loom.Proofs.Listing
import Loom.Proofs.Lookup
import Loom.Proofs.Modules
import Loom.Proofs.NamedList
import Loom.Proofs.NormalStep
import Loom.Proofs.Order
import Loom.Proofs.Output
import Loom.Proofs.Oversight
import Loom.Proofs.Quotation
import Loom.Proofs.Rearrangement
import Loom.Proofs.Reexpansion
import Loom.Proofs.Rerun
import Loom.Proofs.SecondSetting
import Loom.Proofs.Slugs
import Loom.Proofs.Sorts
import Loom.Proofs.Stability
import Loom.Proofs.Transparency
import Loom.Proofs.Truthiness
import Loom.Schema.Module
