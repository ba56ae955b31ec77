import AccessScope.Main
import AccessScope.Memory.World
import AccessScope.Proofs.FilterGrammar
import AccessScope.Proofs.FilterConstruction
import AccessScope.Proofs.Outcomes
import AccessScope.Proofs.StoredRules
import AccessScope.Proofs.AllOrNothing
import AccessScope.Proofs.EntryChanges
import AccessScope.Proofs.Reach
import AccessScope.Proofs.Revisions
import AccessScope.Proofs.Refusals
import AccessScope.Proofs.Views
import AccessScope.Proofs.Joining
import AccessScope.Proofs.EditLaws
import AccessScope.Proofs.Replays
import AccessScope.Proofs.Interleavings
import AccessScope.Proofs.FileChecks
import AccessScope.Proofs.Identities
import AccessScope.Proofs.Permissions
import AccessScope.Proofs.Predictions
import AccessScope.Proofs.JsonForms
import AccessScope.Proofs.NameForms
import AccessScope.Proofs.TermFaults
import AccessScope.Proofs.FinalSigma
import AccessScope.Proofs.FilterFaults
import AccessScope.Proofs.MissingResources
import AccessScope.Proofs.RuleUnions
import AccessScope.Proofs.GrantedFilters
import AccessScope.Proofs.NameLengths
import AccessScope.Proofs.CountedCalls
