import OpenAduc.Lib.Transition
import OpenAduc.Lib.Table
import OpenAduc.Lib.Exclusion
import OpenAduc.Lib.Chain
import OpenAduc.Lib.Accumulate
import OpenAduc.Lib.Runs
import OpenAduc.Lib.Pick
import OpenAduc.Lib.Attempt
import OpenAduc.Lib.Dialogue
import OpenAduc.BulkJobs.Store
import OpenAduc.BulkJobs.Service
import OpenAduc.BulkJobs.Steps
import OpenAduc.BulkJobs.WellFormed
import OpenAduc.BulkJobs.InFlight
import OpenAduc.BulkJobs.Exclusion
import OpenAduc.BulkJobs.Stranded
import OpenAduc.BulkJobs.Fencing
import OpenAduc.BulkJobs.Membership
import OpenAduc.BulkJobs.MembershipRuns
import OpenAduc.BulkJobs.ImportOrder
import OpenAduc.ClassPasses.Store
import OpenAduc.ClassPasses.Service
import OpenAduc.ClassPasses.Claims
import OpenAduc.ClassPasses.Live
import OpenAduc.Naming.Text
import OpenAduc.Naming.Pattern
import OpenAduc.Naming.Names
import OpenAduc.Naming.Normalize
import OpenAduc.Naming.Resolve
import OpenAduc.Naming.Unique
import OpenAduc.Naming.Username
import OpenAduc.Naming.Lookups
import OpenAduc.Naming.Accepted
import OpenAduc.Sync.Registry
import OpenAduc.Sync.Store
import OpenAduc.Sync.Due
import OpenAduc.Sync.Scheduler
import OpenAduc.Sync.Progress
import OpenAduc.Sync.Runs
import OpenAduc.Sync.SignIns
import OpenAduc.Sync.Delta
import OpenAduc.Sessions.Service
import OpenAduc.Sessions.Lifetimes
import OpenAduc.Provider.Directory
import OpenAduc.Provider.Writes
import OpenAduc.Provider.Rename
import OpenAduc.Provider.Truthful
import OpenAduc.Provider.Renaming
import OpenAduc.Provider.AccountWrites
import OpenAduc.UserCreation.Progress
import OpenAduc.UserCreation.Finish
import OpenAduc.Reverts.Attributes
import OpenAduc.Reverts.Facets
import OpenAduc.Reverts.Writes
import OpenAduc.Reverts.Run
import OpenAduc.Provider.Effects
import OpenAduc.Reverts.Restoring
import OpenAduc.Reverts.Effects
import OpenAduc.Reverts.Groups
import OpenAduc.Reverts.Safety
import OpenAduc.UserImport.Managers
import OpenAduc.UserImport.Check
import OpenAduc.Csv.RoundTrip
import OpenAduc.Dn.RoundTrip
import OpenAduc.Sync.NextDue
import OpenAduc.BulkAttributes.Inverse
import OpenAduc.Privilege.Groups
import OpenAduc.Reverts.Plan
import OpenAduc.Reverts.Exact
import OpenAduc.Dn.Escaping
import OpenAduc.Dn.Splitting
import OpenAduc.Expiry.Filetime
import OpenAduc.Provider.MemberRange
import OpenAduc.Sync.FullCrawl
import OpenAduc.Dates.Zoned
import OpenAduc.UserImport.WrittenDates
import OpenAduc.UserMatch.Matched
import OpenAduc.Provider.Refusals
import OpenAduc.Provider.CreateReports
import OpenAduc.Csv.ReadTable
import OpenAduc.LoginBackoff.Consistent
import OpenAduc.Naming.Cutting
import OpenAduc.TemporaryAccessPass.Cleared
import OpenAduc.ImportRows.Told
import OpenAduc.ImportRows.OneAccount
import OpenAduc.LicenseChecks.Overdue
import OpenAduc.Ldap.Found
import OpenAduc.HeldPasswords.Confined
import OpenAduc.StepUps.Idle
